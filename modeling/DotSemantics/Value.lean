import DotSemantics.Declaration.Display
import DotSemantics.Declaration.Same
import DotSemantics.Numeral.Shortest

/-!
# Values

What a parser may hand over: plain data, keywords, and parts of declarations.  Values are shown
in messages (`Value.display`), compared (`Value.same`) and run through as sequences
(`Value.items?`).
-/

namespace DotSemantics

/-- Plain data, a keyword, or a part of a declaration. -/
inductive Value where
  | null
  | bool (b : Bool)
  | int (n : Int)
  | float (x : Float)
  | text (s : String)
  | list (items : List Value)
  | object (fields : List (String × Value))
  | keyword (w : Keyword)
  | attrList (l : AttrList)
  | statement (s : Statement)
  | nodeId (name : Word)
  | hop (h : Hop)
  | declaration (d : Declaration)
deriving Inhabited

namespace Value

def ofWord : Word → Value
  | .text s => text s
  | .keyword w => keyword w

/-! ## Kinds of value -/

/-- A value that can stand as a text in a declaration. -/
def word? : Value → Option Word
  | text s => some (.text s)
  | keyword w => some (.keyword w)
  | _ => none

def attribute? : Value → Option Attribute
  | statement (.assign a) => some a
  | _ => none

def attrList? : Value → Option AttrList
  | attrList l => some l
  | _ => none

/-- A value that can stand in a body. -/
def statement? : Value → Option Statement
  | statement s => some s
  | _ => none

/-- A value that can stand at an end of an edge. -/
def endpoint? : Value → Option Endpoint
  | nodeId n => some (.node n)
  | statement (.subgraph n b) => some (.subgraph n b)
  | _ => none

def hop? : Value → Option Hop
  | hop h => some h
  | _ => none

/-- Whether a value is itself a list or an object, and so cannot be a member of a set. -/
def isNested : Value → Bool
  | list _ => true
  | object _ => true
  | _ => false

/-! ## Sequences -/

/-- The characters of a text, each as a text. -/
def characters (s : String) : List Value := s.toList.map fun c => text (String.singleton c)

/-- The items that a value yields as a sequence: those of a list, the characters of a text or of
a keyword, the keys of an object.  No other value is a sequence. -/
def items? : Value → Option (List Value)
  | list vs => some vs
  | text s => some (characters s)
  | keyword w => some (characters w.text)
  | object fs => some (fs.map fun f => text f.1)
  | _ => none

/-! ## Display -/

mutual

/-- A value as it stands in messages.  Whole numbers are written out at any length and values at any
depth; the limits that a runtime sets on that are left out. -/
def display : Value → String
  | null => "None"
  | bool b => if b then "True" else "False"
  | int n => toString n
  | float x => (Double.ofFloat x).numeral .message
  | text s => Text.literal s
  | list vs => "[" ++ commaSeparated (displayAll vs) ++ "]"
  | object fs => "\x7b" ++ commaSeparated (displayEntries fs) ++ "\x7d"
  | keyword w => w.display
  | attrList l => l.display
  | statement s => s.display
  | nodeId n => displayNodeId n
  | hop h => h.display
  | declaration d => d.display

def displayAll : List Value → List String
  | [] => []
  | v :: r => v.display :: displayAll r

def displayEntries : List (String × Value) → List String
  | [] => []
  | (k, v) :: r => (Text.literal k ++ ": " ++ v.display) :: displayEntries r

end

/-! ## Sameness -/

/-- A value that counts as a whole number; a truth value counts as zero or one. -/
def whole? : Value → Option Int
  | bool b => some (if b then 1 else 0)
  | int n => some n
  | _ => none

/-- Whether two values are the same number. -/
def sameNumber (v w : Value) : Bool :=
  match v, w with
  | float x, float y => (Double.ofFloat x).same (Double.ofFloat y)
  | float x, w => w.whole?.any (Double.ofFloat x).isInt
  | v, float y => v.whole?.any (Double.ofFloat y).isInt
  | v, w => v.whole?.isSome && v.whole? == w.whole?

/-- Whether two values are both the double that is not a number. -/
def bothNotANumber : Value → Value → Bool
  | float x, float y => Double.ofFloat x == .notANumber && Double.ofFloat y == .notANumber
  | _, _ => false

mutual

/-- Whether two values are the same: numbers by value, words by text, lists place by place,
objects key by key in any order, and parts of declarations by shape.  The double that is not a
number differs from itself on its own, and agrees with itself inside a list or an object. -/
def same : Value → Value → Bool
  | null, null => true
  | list vs, list ws => sameItems vs ws
  | object fs, object gs => fs.length == gs.length && sameFields fs gs
  | attrList l, attrList m => l.same m
  | statement s, statement t => s.same t
  | nodeId n, nodeId m => n.same m
  | hop h, hop i => h.same i
  | declaration d, declaration e => d.same e
  | v, w =>
    match v.word?, w.word? with
    | some a, some b => a.same b
    | _, _ => v.sameNumber w

def sameItems : List Value → List Value → Bool
  | [], [] => true
  | v :: r, w :: s => (v.same w || v.bothNotANumber w) && sameItems r s
  | _, _ => false

/-- Whether every entry of the first object has its like in the second. -/
def sameFields : List (String × Value) → List (String × Value) → Bool
  | [], _ => true
  | (k, v) :: r, gs =>
    (match gs.find? fun g => g.1 = k with
      | some g => v.same g.2 || v.bothNotANumber g.2
      | none => false) && sameFields r gs

end

end Value

end DotSemantics
