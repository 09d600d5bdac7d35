import DotSemantics.AttributeName
import DotSemantics.Table
import DotSemantics.Text.Blank
import DotSemantics.Text.Lower
import DotSemantics.Text.Pieces
import DotSemantics.Text.Sorted
import DotSemantics.Value

/-!
# Allowed layouts

The set of layout algorithms that a graph may ask for.  It is never empty, and each of its names
is in lower case.  The standard set can be replaced (`Layouts.ofValue`) or extended from a
comma-separated variable of the environment (`Layouts.ofEnvironment`).
-/

namespace DotSemantics

/-- The layout algorithms that a graph may name, ascending and each once. -/
structure Layouts where
  names : List String
deriving Repr, DecidableEq, Inhabited

/-- Why a value or an environment gives no set of layouts. -/
inductive LayoutsDefect where
  /-- the value is no sequence -/
  | notSequence
  /-- an item is a list or an object, and so cannot be in a set -/
  | nested
  | noLayout
  | notTexts
  | notLower (names : List String)
  | blankPiece (raw : String)
deriving Repr, DecidableEq

/-- The variable that holds further layout names. -/
def extraLayoutsVariable : String := "DOTGRAPH_EXTRA_LAYOUTS"

/-- The wording of a defect; what cannot be made a set is refused without words.  Of items that are
not all texts, only the beginning of the wording is given: behind it stands the set of the items,
which has no order to be shown in. -/
def LayoutsDefect.message? : LayoutsDefect → Option String
  | notSequence => none
  | nested => none
  | noLayout => some "At least one layout algorithm must be allowed"
  | notTexts => some "Layout names must be strings"
  | notLower ns =>
    some ("Layout names must be lower case: [" ++ commaSeparated (ns.map Text.literal) ++ "]")
  | blankPiece raw =>
    some ("Empty layout name in " ++ extraLayoutsVariable ++ "=" ++ Text.literal raw)

namespace Layouts

def allows (ls : Layouts) (name : String) : Bool := ls.names.contains name

def standard : Layouts := ⟨standardLayouts⟩

/-- The set of some names, none of which has an upper-case letter. -/
def ofNames (ns : List String) : Except LayoutsDefect Layouts :=
  if ns.isEmpty then .error .noLayout
  else if ns.all Text.isLower then .ok ⟨Text.sortedSet ns⟩
  else .error (.notLower (Text.sortedSet ns))

/-- The texts of some values, if all of them are texts. -/
def texts? : List Value → Option (List String)
  | [] => some []
  | v :: r => do
    let w ← v.word?
    let ss ← texts? r
    return w.toText :: ss

/-- The set of the items of a value. -/
def ofValue (v : Value) : Except LayoutsDefect Layouts :=
  match v.items? with
  | none => .error .notSequence
  | some vs =>
    if vs.any Value.isNested then .error .nested
    else if vs.isEmpty then .error .noLayout
    else match texts? vs with
      | none => .error .notTexts
      | some ns => ofNames ns

/-! ## From the environment -/

/-- A piece of the variable as a layout name. -/
def normalize (piece : List Char) : String := Text.lower (String.ofList (Text.stripChars piece))

/-- The names that the pieces of a text between commas give; no piece may be blank. -/
def extraNames (raw : String) : Except LayoutsDefect (List String) :=
  let names := (Text.pieces ',' raw.toList).map normalize
  if names.contains "" then .error (.blankPiece raw) else .ok names

/-- The standard layouts and those that the environment adds. -/
def ofEnvironment (env : Table String) : Except LayoutsDefect Layouts :=
  let raw := Text.strip ((env.get? extraLayoutsVariable).getD "")
  if raw = "" then .ok standard
  else do ofNames (standardLayouts ++ (← extraNames raw))

end Layouts

end DotSemantics
