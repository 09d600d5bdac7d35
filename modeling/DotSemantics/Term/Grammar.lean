import DotSemantics.Declaration.WellFormed
import DotSemantics.Term

/-!
# The grammar of constructions

What the fields of each construction may be (`Term.checks`), read off the terms before anything is
built, and which value a nest of constructions makes (`Term.Makes`).  A construction of a nest is
at fault if a check of its fields is not met; the first check that is not met says how
(`Term.Offends`).
-/

namespace DotSemantics

/-! ## Kinds -/

/-- The kinds of value that the grammar tells apart. -/
inductive Kind where
  | null
  | number
  | text
  | list
  | object
  | keyword (voc : Vocabulary)
  | attribute
  | attrList
  | attrs
  | nodeId
  | node
  | subgraph
  | hop
  | edge
  | declaration
deriving Repr, DecidableEq

def Statement.kind : Statement → Kind
  | .assign _ => .attribute
  | .attrs _ _ => .attrs
  | .node _ _ => .node
  | .edge _ _ _ => .edge
  | .subgraph _ _ => .subgraph

def Value.kind : Value → Kind
  | .null => .null
  | .bool _ => .number
  | .int _ => .number
  | .float _ => .number
  | .text _ => .text
  | .list _ => .list
  | .object _ => .object
  | .keyword w => .keyword w.vocabulary
  | .attrList _ => .attrList
  | .statement s => s.kind
  | .nodeId _ => .nodeId
  | .hop _ => .hop
  | .declaration _ => .declaration

/-- The kind of what a term makes. -/
def Term.kind : Term → Kind
  | .null => .null
  | .bool _ => .number
  | .int _ => .number
  | .float _ => .number
  | .text _ => .text
  | .list _ => .list
  | .object _ => .object
  | .keyword voc _ => .keyword voc
  | .attr _ _ => .attribute
  | .attrList _ => .attrList
  | .attrListOfPairs _ => .attrList
  | .attrListOfTable _ => .attrList
  | .attrs _ _ => .attrs
  | .nodeId _ => .nodeId
  | .node _ _ => .node
  | .subgraph _ _ => .subgraph
  | .hop _ _ => .hop
  | .edge _ _ _ => .edge
  | .declaration _ _ _ => .declaration

def textKinds : List Kind := [.text, .keyword .graphKind, .keyword .target, .keyword .edgeOp]

def endpointKinds : List Kind := [.nodeId, .subgraph]

def ItemSlot.kinds : ItemSlot → List Kind
  | entry => [.attribute]
  | attrList => [.attrList]
  | statement => [.attribute, .attrs, .node, .edge, .subgraph]
  | hop => [.hop]

/-! ## Fields -/

namespace Term

/-- The word that a text or a keyword makes. -/
def word? : Term → Option Word
  | text s => some (.text s)
  | keyword voc v =>
    match voc.find v with
    | .ok w => some (.keyword w)
    | .error _ => none
  | _ => none

def characters (s : String) : List Term := s.toList.map fun c => text (String.singleton c)

/-- The items of a term that is run through as a sequence. -/
def items? : Term → Option (List Term)
  | list ts => some ts
  | text s => some (characters s)
  | keyword voc v =>
    match voc.find v with
    | .ok w => some (characters w.text)
    | .error _ => none
  | object fs => some (fs.map fun f => text f.1)
  | _ => none

theorem word?_keyword {voc : Vocabulary} {v : Value} {w : Keyword} (h : voc.find v = .ok w) :
    (keyword voc v).word? = some (.keyword w) := by
  simp only [word?, h]

theorem items?_keyword {voc : Vocabulary} {v : Value} {w : Keyword} (h : voc.find v = .ok w) :
    (keyword voc v).items? = some (characters w.text) := by
  simp only [items?, h]

end Term

inductive Check where
  /-- the field is of one of some kinds, else it is refused -/
  | isOf (kinds : List Kind) (refusal : Value → Malformation) (field : Term)
  /-- the field is a sequence, with items for a slot -/
  | items (slot : ItemSlot) (field : Term)
  /-- the field is not an empty sequence of hops -/
  | someHop (field : Term)

/-- The checks of the fields of a construction, in their order.  The name of an attribute stands in
the refusal of its value, which is seen only if the name is a word. -/
def Term.checks : Term → List Check
  | attr n v => [
    .isOf textKinds (.notText .attributeName) n,
    .isOf textKinds (.notText (.attributeValue (n.word?.getD default))) v]
  | attrList as => [.items .entry as]
  | attrs t ls => [.isOf [.keyword .target] .notTarget t, .items .attrList ls]
  | nodeId n => [.isOf textKinds (.notText .nodeId) n]
  | node i ls => [.isOf [.nodeId] .notNodeId i, .items .attrList ls]
  | subgraph n b => [.isOf (.null :: textKinds) (.notText .subgraphName) n, .items .statement b]
  | hop o e => [.isOf [.keyword .edgeOp] .notOperator o, .isOf endpointKinds .notEndpoint e]
  | edge s hs ls => [
    .isOf endpointKinds .notEndpoint s, .items .hop hs, .someHop hs, .items .attrList ls]
  | declaration k n b => [
    .isOf [.keyword .graphKind] .notGraphKind k,
    .isOf (.null :: textKinds) (.notText .graphName) n, .items .statement b]
  | _ => []

/-! ## Parts -/

namespace Term

mutual

/-- A term and all terms inside it, in the order in which they are carried out. -/
def parts : Term → List Term
  | list ts => partsOfAll ts ++ [list ts]
  | object fs => partsOfEntries fs ++ [object fs]
  | attr n v => n.parts ++ (v.parts ++ [attr n v])
  | attrList as => as.parts ++ [attrList as]
  | attrs t ls => t.parts ++ (ls.parts ++ [attrs t ls])
  | nodeId n => n.parts ++ [nodeId n]
  | node i ls => i.parts ++ (ls.parts ++ [node i ls])
  | subgraph n b => n.parts ++ (b.parts ++ [subgraph n b])
  | hop o e => o.parts ++ (e.parts ++ [hop o e])
  | edge s hs ls => s.parts ++ (hs.parts ++ (ls.parts ++ [edge s hs ls]))
  | declaration k n b => k.parts ++ (n.parts ++ (b.parts ++ [declaration k n b]))
  | t => [t]

def partsOfAll : List Term → List Term
  | [] => []
  | t :: r => t.parts ++ partsOfAll r

def partsOfEntries : List (String × Term) → List Term
  | [] => []
  | (_, t) :: r => t.parts ++ partsOfEntries r

end

/-- Whether a term is plain data, a keyword that there is, or one of the constructions from
fields. -/
def IsPlain : Term → Prop
  | keyword voc v => ∃ w, voc.find v = .ok w
  | attrListOfPairs _ => False
  | attrListOfTable _ => False
  | _ => True

/-- A nest of constructions from plain data and keywords. -/
def IsNest (t : Term) : Prop := ∀ p ∈ t.parts, p.IsPlain

end Term

/-! ## What a nest makes -/

def Value.ofEndpoint : Endpoint → Value
  | .node n => .nodeId n
  | .subgraph n b => .statement (.subgraph n b)

def Value.ofOptionalWord : Option Word → Value
  | none => .null
  | some w => .ofWord w

namespace Term

mutual

/-- A nest makes a value: each field holds what its term makes, and a field for a sequence holds
the items in their order. -/
inductive Makes : Term → Value → Prop
  | null : Makes .null .null
  | bool {b : Bool} : Makes (.bool b) (.bool b)
  | int {n : Int} : Makes (.int n) (.int n)
  | float {x : Float} : Makes (.float x) (.float x)
  | text {s : String} : Makes (.text s) (.text s)
  | list {ts : List Term} {vs : List Value} (items : MakesAll ts vs) :
      Makes (.list ts) (.list vs)
  | object {fs : List (String × Term)} {gs : List (String × Value)} (entries : MakesEntries fs gs) :
      Makes (.object fs) (.object gs)
  | keyword {voc : Vocabulary} {v : Value} {w : Keyword} (found : voc.find v = .ok w) :
      Makes (.keyword voc v) (.keyword w)
  | attr {n v : Term} {a b : Word} (name : Makes n (.ofWord a)) (value : Makes v (.ofWord b)) :
      Makes (.attr n v) (.statement (.assign ⟨a, b⟩))
  | attrList {as : Term} {c : Value} {xs : List Attribute} (sequence : Makes as c)
      (items : c.items? = some (xs.map fun x => .statement (.assign x))) :
      Makes (.attrList as) (.attrList ⟨xs⟩)
  | attrs {t ls : Term} {g : Target} {c : Value} {xs : List AttrList}
      (target : Makes t (.keyword (.target g))) (sequence : Makes ls c)
      (items : c.items? = some (xs.map .attrList)) :
      Makes (.attrs t ls) (.statement (.attrs g xs))
  | nodeId {n : Term} {a : Word} (name : Makes n (.ofWord a)) : Makes (.nodeId n) (.nodeId a)
  | node {i ls : Term} {a : Word} {c : Value} {xs : List AttrList} (id : Makes i (.nodeId a))
      (sequence : Makes ls c) (items : c.items? = some (xs.map .attrList)) :
      Makes (.node i ls) (.statement (.node a xs))
  | subgraph {n b : Term} {o : Option Word} {c : Value} {xs : List Statement}
      (name : Makes n (.ofOptionalWord o)) (sequence : Makes b c)
      (items : c.items? = some (xs.map .statement)) :
      Makes (.subgraph n b) (.statement (.subgraph o xs))
  | hop {o e : Term} {g : EdgeOp} {x : Endpoint} (op : Makes o (.keyword (.edgeOp g)))
      (target : Makes e (.ofEndpoint x)) : Makes (.hop o e) (.hop (.via g x))
  | edge {s hs ls : Term} {x : Endpoint} {c d : Value} {hops : List Hop} {xs : List AttrList}
      (source : Makes s (.ofEndpoint x)) (sequence : Makes hs c)
      (items : c.items? = some (hops.map .hop)) (nonempty : hops ≠ []) (lists : Makes ls d)
      (listItems : d.items? = some (xs.map .attrList)) :
      Makes (.edge s hs ls) (.statement (.edge x hops xs))
  | declaration {k n b : Term} {g : GraphKind} {o : Option Word} {c : Value} {xs : List Statement}
      (kind : Makes k (.keyword (.graphKind g))) (name : Makes n (.ofOptionalWord o))
      (sequence : Makes b c) (items : c.items? = some (xs.map .statement)) :
      Makes (.declaration k n b) (.declaration ⟨g, o, xs⟩)

inductive MakesAll : List Term → List Value → Prop
  | nil : MakesAll [] []
  | cons {t : Term} {v : Value} {ts : List Term} {vs : List Value} (head : Makes t v)
      (tail : MakesAll ts vs) : MakesAll (t :: ts) (v :: vs)

/-- Entries make entries with the same names, place by place. -/
inductive MakesEntries : List (String × Term) → List (String × Value) → Prop
  | nil : MakesEntries [] []
  | cons {k : String} {t : Term} {v : Value} {fs : List (String × Term)}
      {gs : List (String × Value)} (head : Makes t v) (tail : MakesEntries fs gs) :
      MakesEntries ((k, t) :: fs) ((k, v) :: gs)

end

end Term

namespace Value

mutual

/-- Whether every edge chain in a value has a hop. -/
def WellFormed : Value → Prop
  | list vs => AllWellFormed vs
  | object fs => EntriesWellFormed fs
  | statement s => s.WellFormed
  | hop h => h.target.WellFormed
  | declaration d => d.WellFormed
  | _ => True

def AllWellFormed : List Value → Prop
  | [] => True
  | v :: r => v.WellFormed ∧ AllWellFormed r

def EntriesWellFormed : List (String × Value) → Prop
  | [] => True
  | (_, v) :: r => v.WellFormed ∧ EntriesWellFormed r

end

theorem allWellFormed_iff (vs : List Value) : AllWellFormed vs ↔ ∀ v ∈ vs, v.WellFormed := by
  induction vs with
  | nil => simp [AllWellFormed]
  | cons v vs ih => rw [AllWellFormed, ih, List.forall_mem_cons]

end Value

/-! ## Faults -/

/-- Of some things that are looked at in their order, the first that is not met is refused. -/
def FirstRefused {ι : Type} (Met : ι → Prop) (Refuses : ι → Defect → Prop) (l : List ι)
    (e : Defect) : Prop :=
  ∃ before i after, l = before ++ i :: after ∧ (∀ j ∈ before, Met j) ∧ ¬ Met i ∧ Refuses i e

/-- A term is of a kind that a slot allows. -/
def ItemSlot.Admits (slot : ItemSlot) (t : Term) : Prop := t.kind ∈ slot.kinds

/-- How an item is refused that its slot does not allow. -/
def ItemSlot.Refuses (slot : ItemSlot) (t : Term) (e : Defect) : Prop :=
  ∃ v, t.Makes v ∧ e = .malformed (.notItem slot v)

namespace Check

def Met : Check → Prop
  | isOf kinds _ t => t.kind ∈ kinds
  | items slot t => ∃ ts, t.items? = some ts ∧ ∀ i ∈ ts, slot.Admits i
  | someHop t => t.items? ≠ some []

/-- How a check is refused that is not met. -/
inductive Refuses : Check → Defect → Prop
  | isOf {kinds : List Kind} {refusal : Value → Malformation} {t : Term} {v : Value}
      (made : t.Makes v) : Refuses (.isOf kinds refusal t) (.malformed (refusal v))
  | notSequence {slot : ItemSlot} {t : Term} (notItems : t.items? = none) :
      Refuses (.items slot t) .notSequence
  | item {slot : ItemSlot} {t : Term} {ts : List Term} {e : Defect} (items : t.items? = some ts)
      (first : FirstRefused slot.Admits slot.Refuses ts e) : Refuses (.items slot t) e
  | noHop {t : Term} : Refuses (.someHop t) (.malformed .noHop)

end Check

namespace Term

/-- The fields of a construction are as the grammar has them. -/
def Fits (t : Term) : Prop := ∀ c ∈ t.checks, c.Met

/-- A construction is refused at the first of its checks that is not met. -/
def Offends (t : Term) (e : Defect) : Prop := FirstRefused Check.Met Check.Refuses t.checks e

end Term

end DotSemantics
