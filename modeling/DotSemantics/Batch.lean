import DotSemantics.Fault
import DotSemantics.Walk

/-!
# Reading a batch

A batch is a sequence of declarations, with gaps.  Each declaration is read on its own, from a
fresh state; the graphs come in the order of the declarations, and the first failure ends the
batch without a graph.
-/

namespace DotSemantics

/-! ## One declaration -/

namespace Declaration

def walk (ls : Layouts) (d : Declaration) (log : List LogEntry) :
    EStateM.Result UnknownLayout Walk Unit :=
  visitAll ls d.body (Walk.start d.kind d.graphName log)

/-- Reads a declaration that stands at an index; what was recorded is kept in any case. -/
def read (ls : Layouts) (index : Nat) (d : Declaration) :
    List LogEntry × Except UnknownLayout Graph :=
  match d.walk ls [⟨.debug, .began d.kind d.name index⟩] with
  | .error e w => (w.log, .error e)
  | .ok _ w =>
    let g := w.graph
    ((w.record (.finished g.name? g.nodes.length g.edges.length)).log, .ok g)

end Declaration

/-! ## All declarations -/

inductive BatchFailure where
  | unknownLayout (layout : String) (place : Place)
  | notDeclaration (index : Nat) (got : Value)

def BatchFailure.fault : BatchFailure → Fault
  | unknownLayout layout place => .unknownLayout layout place
  | notDeclaration index got =>
    .malformed ("Expected GraphDecl at index " ++ toString index ++ ", got " ++ got.display)

/-- Reads the rest of a batch, whose first entry stands at the given index. -/
def readFrom (ls : Layouts) (index : Nat) :
    List Value → List LogEntry × Except BatchFailure (List Graph)
  | [] => ([], .ok [])
  | .null :: rest =>
    let r := readFrom ls (index + 1) rest
    (⟨.debug, .skipped index⟩ :: r.1, r.2)
  | .declaration d :: rest =>
    match d.read ls index with
    | (log, .error e) => (log, .error (.unknownLayout e.layout ⟨index, e.graphName⟩))
    | (log, .ok g) =>
      let r := readFrom ls (index + 1) rest
      (log ++ r.1, r.2.map (g :: ·))
  | v :: _ => ([], .error (.notDeclaration index v))

/-- Reads a batch: the records, and the graphs or the failure. -/
def readBatch (ls : Layouts) (entries : List Value) :
    List LogEntry × Except BatchFailure (List Graph) := readFrom ls 0 entries

end DotSemantics
