import DotSemantics.AttributeName
import DotSemantics.Batch
import DotSemantics.Declaration
import DotSemantics.Declaration.Contents
import DotSemantics.Declaration.Course
import DotSemantics.Declaration.Display
import DotSemantics.Declaration.Make
import DotSemantics.Declaration.Meant
import DotSemantics.Declaration.Same
import DotSemantics.Declaration.WellFormed
import DotSemantics.Defect
import DotSemantics.Distinct
import DotSemantics.Draft
import DotSemantics.Draft.Audit
import DotSemantics.Draft.Display
import DotSemantics.Fault
import DotSemantics.Flat
import DotSemantics.Keyword
import DotSemantics.Layouts
import DotSemantics.Log
import DotSemantics.Meaning
import DotSemantics.Numeral.Binary
import DotSemantics.Numeral.Shortest
import DotSemantics.Proofs.Alike
import DotSemantics.Proofs.Auditing
import DotSemantics.Proofs.Batches
import DotSemantics.Proofs.Construction
import DotSemantics.Proofs.Defaults
import DotSemantics.Proofs.Drafts
import DotSemantics.Proofs.Edges
import DotSemantics.Proofs.Fields
import DotSemantics.Proofs.Flattening
import DotSemantics.Proofs.GraphAttributes
import DotSemantics.Proofs.LowerCase
import DotSemantics.Proofs.NodeAttributes
import DotSemantics.Proofs.Nodes
import DotSemantics.Proofs.Reading
import DotSemantics.Proofs.Refusals
import DotSemantics.Proofs.Run
import DotSemantics.Proofs.Sites
import DotSemantics.Proofs.Sound
import DotSemantics.Proofs.Tables
import DotSemantics.Proofs.Trials
import DotSemantics.Proofs.Visit
import DotSemantics.Table
import DotSemantics.Term
import DotSemantics.Term.Grammar
import DotSemantics.Text.Blank
import DotSemantics.Text.Case
import DotSemantics.Text.Literal
import DotSemantics.Text.Lower
import DotSemantics.Text.Pieces
import DotSemantics.Text.Printable
import DotSemantics.Text.Quoted
import DotSemantics.Text.Ranges
import DotSemantics.Text.Sorted
import DotSemantics.Value
import DotSemantics.Walk
import DotSemantics.Walk.Settle
import DotSemantics.Walk.State
import DotSemantics.Proofs.Editing
import DotSemantics.Proofs.Findings
import DotSemantics.Proofs.Depiction
import DotSemantics.Proofs.Slices
import DotSemantics.Proofs.Renaming
import DotSemantics.Proofs.Trace
import DotSemantics.Proofs.Chains
import DotSemantics.Proofs.Restating
import DotSemantics.Proofs.Growth
import DotSemantics.Proofs.Environment
import DotSemantics.Proofs.Quoting
import DotSemantics.Proofs.Isolation
import DotSemantics.Proofs.LayoutSets
import DotSemantics.Proofs.Pairs
import DotSemantics.Proofs.Coherence
