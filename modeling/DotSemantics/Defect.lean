import DotSemantics.Value

/-!
# Defects

Why a part of a declaration cannot be made from the values given for it.  Each defect holds the
value at fault; the wording is in `Defect.message?`.
-/

namespace DotSemantics

/-- A place where a text is required. -/
inductive TextSlot where
  | attributeName
  | attributeValue (name : Word)
  | nodeId
  | subgraphName
  | graphName
deriving Repr, DecidableEq

/-- A sequence all of whose items must be of one kind. -/
inductive ItemSlot where
  | entry
  | attrList
  | statement
  | hop
deriving Repr, DecidableEq

/-- Why a value is of no use where it stands. -/
inductive Malformation where
  | notText (slot : TextSlot) (got : Value)
  | notItem (slot : ItemSlot) (got : Value)
  | notTarget (got : Value)
  | notNodeId (got : Value)
  | notOperator (got : Value)
  | notEndpoint (got : Value)
  | notGraphKind (got : Value)
  | noHop

inductive Defect where
  /-- a value of the wrong kind -/
  | malformed (m : Malformation)
  /-- a sequence is asked for, and the value is none -/
  | notSequence
  /-- a pair is asked for, and the sequence has fewer parts -/
  | tooFewParts (count : Nat)
  /-- a pair is asked for, and the sequence has more parts -/
  | tooManyParts
  /-- a key of a table is a list or an object -/
  | nestedKey (key : Value)
  /-- the vocabulary has no such word -/
  | notInVocabulary (v : Vocabulary) (got : Value)

def TextSlot.role : TextSlot → String
  | attributeName => "attribute name"
  | attributeValue name => "value of attribute " ++ name.display
  | nodeId => "node id"
  | subgraphName => "subgraph name"
  | graphName => "graph name"

def ItemSlot.role : ItemSlot → String
  | entry => "attribute list entry"
  | attrList => "attribute list"
  | statement => "statement"
  | hop => "edge right-hand side"

def Malformation.message : Malformation → String
  | notText slot v => "Expected string for " ++ slot.role ++ ", got " ++ v.display
  | notItem slot v => "Invalid " ++ slot.role ++ ": " ++ v.display
  | notTarget v => "Attribute statement target must be graph, node or edge, got " ++ v.display
  | notNodeId v => "Node statement requires a NodeId, got " ++ v.display
  | notOperator v => "Edge operator must be '->' or '--', got " ++ v.display
  | notEndpoint v => "Edge endpoint must be a NodeId or Subgraph, got " ++ v.display
  | notGraphKind v => "Graph type must be graph or digraph, got " ++ v.display
  | noHop => "Edge statement requires at least one edge operator"

/-- The wording of a defect; what is no sequence, or no key, is refused without words. -/
def Defect.message? : Defect → Option String
  | malformed m => some m.message
  | notSequence => none
  | nestedKey _ => none
  | tooFewParts n =>
    some ("not enough values to unpack (expected 2, got " ++ toString n ++ ")")
  | tooManyParts => some "too many values to unpack (expected 2)"
  | notInVocabulary v got => some (v.refusal got.display)

end DotSemantics
