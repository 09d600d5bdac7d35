/-!
# Faults

The faults that are reported to callers, in families: a fault of a narrower family is a fault of
each wider one (`Family.lineage`).  A fault in the reading of a declaration says which one it was.
-/

namespace DotSemantics

inductive Family where
  | general
  | malformed
  | configuration
  | interpretation
  | unknownLayout
deriving Repr, DecidableEq, Inhabited

namespace Family

/-- A family and all wider ones, the narrowest first. -/
def lineage : Family → List Family
  | general => [general]
  | malformed => [malformed, general]
  | configuration => [configuration, general]
  | interpretation => [interpretation, general]
  | unknownLayout => [unknownLayout, interpretation, general]

end Family

/-- Which declaration of a batch a fault is about. -/
structure Place where
  index : Int
  name : Option String
deriving Repr, DecidableEq, Inhabited

inductive Fault where
  | general (text : String)
  | malformed (text : String)
  | configuration (text : String)
  | interpretation (text : String) (place : Place)
  | unknownLayout (layout : String) (place : Place)
deriving Repr, DecidableEq, Inhabited

namespace Fault

def family : Fault → Family
  | general _ => .general
  | malformed _ => .malformed
  | configuration _ => .configuration
  | interpretation _ _ => .interpretation
  | unknownLayout _ _ => .unknownLayout

def message : Fault → String
  | general t => t
  | malformed t => t
  | configuration t => t
  | interpretation t _ => t
  | unknownLayout layout _ => "Unknown layout algorithm <" ++ layout ++ ">."

def place? : Fault → Option Place
  | interpretation _ p => some p
  | unknownLayout _ p => some p
  | _ => none

end Fault

end DotSemantics
