import DotSemantics.Declaration.Display

/-!
# The log

What is recorded while declarations are read: entries that are skipped, the begin and the end of
each declaration, and attributes that only the grammar may set.
-/

namespace DotSemantics

/-- How much a record matters. -/
inductive Level where
  | debug
  | info
  | warning
  | error
deriving Repr, DecidableEq, Inhabited

inductive Event where
  /-- no declaration stands at an index -/
  | skipped (index : Nat)
  /-- the reading of a declaration begins; its name is the one written -/
  | began (kind : GraphKind) (name : Option Word) (index : Nat)
  /-- an attribute list names what only the grammar decides -/
  | ignoredMeta (name value : String)
  /-- the reading of a declaration is done -/
  | finished (name : Option String) (nodes edges : Nat)
deriving Repr, DecidableEq

structure LogEntry where
  level : Level
  event : Event
deriving Repr, DecidableEq

def Level.text : Level → String
  | debug => "DEBUG"
  | info => "INFO"
  | warning => "WARNING"
  | error => "ERROR"

def Event.message : Event → String
  | skipped i => "No graph declaration at index " ++ toString i ++ ", skipping"
  | began k n i =>
    "Interpreting " ++ k.text ++ " " ++ displayOption (n.map Word.display) ++
      " (index " ++ toString i ++ ")"
  | ignoredMeta n v =>
    "Ignoring meta attribute " ++ n ++ "=" ++ Text.literal v ++ " in attribute list"
  | finished n nodes edges =>
    "Interpreted graph " ++ displayOption (n.map Text.literal) ++ ": " ++ toString nodes ++
      " nodes, " ++ toString edges ++ " edges"

end DotSemantics
