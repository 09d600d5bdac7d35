import DotSemantics.Defect

/-!
# Making declarations from values

One function per part of a declaration.  Each looks at its arguments in order and stops at the
first that does not fit; sequences are run through from the left.
-/

namespace DotSemantics

/-! ## Fields -/

def requireText (slot : TextSlot) (v : Value) : Except Defect Word :=
  match v.word? with
  | some w => .ok w
  | none => .error (.malformed (.notText slot v))

def optionalText (slot : TextSlot) : Value → Except Defect (Option Word)
  | .null => .ok none
  | v => (requireText slot v).map some

def requireEndpoint (v : Value) : Except Defect Endpoint :=
  match v.endpoint? with
  | some e => .ok e
  | none => .error (.malformed (.notEndpoint v))

/-- The items of a list, each of one kind. -/
def pickAll {α : Type} (pick : Value → Option α) (slot : ItemSlot) :
    List Value → Except Defect (List α)
  | [] => .ok []
  | v :: r =>
    match pick v with
    | none => .error (.malformed (.notItem slot v))
    | some a => (pickAll pick slot r).map (a :: ·)

/-- The items of a value that has to be a sequence, each of one kind. -/
def requireItems {α : Type} (pick : Value → Option α) (slot : ItemSlot) (v : Value) :
    Except Defect (List α) :=
  match v.items? with
  | none => .error .notSequence
  | some vs => pickAll pick slot vs

def requireLists (v : Value) : Except Defect (List AttrList) :=
  requireItems Value.attrList? .attrList v

def requireBody (v : Value) : Except Defect (List Statement) :=
  requireItems Value.statement? .statement v

/-- The word of a vocabulary that a value names or is; a word of another vocabulary names the one
with the same text. -/
def Vocabulary.find (voc : Vocabulary) (v : Value) : Except Defect Keyword :=
  let found := match v with
    | .text s => voc.word? s
    | .keyword w => voc.word? w.text
    | _ => none
  match found with
  | some w => .ok w
  | none => .error (.notInVocabulary voc v)

/-! ## Parts -/

/-- An attribute; both its name and its value have to be texts. -/
def Attribute.make (name value : Value) : Except Defect Attribute := do
  let n ← requireText .attributeName name
  let v ← requireText (.attributeValue n) value
  return ⟨n, v⟩

def AttrList.make (attributes : Value) : Except Defect AttrList := do
  return ⟨← requireItems Value.attribute? .entry attributes⟩

/-- An attribute statement; its target has to be a keyword. -/
def Statement.makeAttrs (target lists : Value) : Except Defect Statement :=
  match target with
  | .keyword (.target t) => (requireLists lists).map (.attrs t)
  | v => .error (.malformed (.notTarget v))

def makeNodeId (name : Value) : Except Defect Word := requireText .nodeId name

def Statement.makeNode (id lists : Value) : Except Defect Statement :=
  match id with
  | .nodeId n => (requireLists lists).map (.node n)
  | v => .error (.malformed (.notNodeId v))

def Statement.makeSubgraph (name body : Value) : Except Defect Statement := do
  let n ← optionalText .subgraphName name
  return .subgraph n (← requireBody body)

/-- A hop; its operator has to be a keyword. -/
def Hop.make (op target : Value) : Except Defect Hop :=
  match op with
  | .keyword (.edgeOp o) => (requireEndpoint target).map (.via o)
  | v => .error (.malformed (.notOperator v))

/-- An edge chain; it needs at least one hop. -/
def Statement.makeEdge (source hops lists : Value) : Except Defect Statement := do
  let s ← requireEndpoint source
  let hs ← requireItems Value.hop? .hop hops
  if hs.isEmpty then throw (.malformed .noHop)
  return .edge s hs (← requireLists lists)

/-- A graph declaration; its kind has to be a keyword. -/
def Declaration.make (kind name body : Value) : Except Defect Declaration :=
  match kind with
  | .keyword (.graphKind k) => do
    let n ← optionalText .graphName name
    return ⟨k, n, ← requireBody body⟩
  | v => .error (.malformed (.notGraphKind v))

/-! ## Attribute lists from pairs and tables -/

def requirePair (v : Value) : Except Defect (Value × Value) :=
  match v.items? with
  | none => .error .notSequence
  | some [a, b] => .ok (a, b)
  | some vs => .error (if vs.length < 2 then .tooFewParts vs.length else .tooManyParts)

/-- An attribute for each entry; an entry is taken apart and made before the next is looked at. -/
def attributesOfPairs : List Value → Except Defect (List Attribute)
  | [] => .ok []
  | e :: r => do
    let p ← requirePair e
    let a ← Attribute.make p.1 p.2
    return a :: (← attributesOfPairs r)

def attributesOfEntries : List (Value × Value) → Except Defect (List Attribute)
  | [] => .ok []
  | e :: r => do
    let a ← Attribute.make e.1 e.2
    return a :: (← attributesOfEntries r)

/-- A key of a table; lists and objects are none. -/
def requireKey (k : Value) : Except Defect Value :=
  if k.isNested then .error (.nestedKey k) else .ok k

/-- Writes a value at a key: in place if a same key is present, at the end otherwise. -/
def putAtKey (k v : Value) : List (Value × Value) → List (Value × Value)
  | [] => [(k, v)]
  | e :: r => if e.1.same k then (e.1, v) :: r else e :: putAtKey k v r

/-- An attribute list from keys and their values: of two entries with the same key the first fixes
the place and the last the value. -/
def AttrList.ofTable (entries : List (Value × Value)) : Except Defect AttrList :=
  (attributesOfEntries (entries.foldl (fun t e => putAtKey e.1 e.2 t) [])).map AttrList.mk

/-- An attribute list from a sequence of pairs, or from an object as a table. -/
def AttrList.ofPairs : Value → Except Defect AttrList
  | .object fs => AttrList.ofTable (fs.map fun f => (.text f.1, f.2))
  | v =>
    match v.items? with
    | none => .error .notSequence
    | some es => (attributesOfPairs es).map AttrList.mk

end DotSemantics
