import SqlTree.Format.Describe
import SqlTree.Format.OptionsJson
import SqlTree.Format.Statement
import SqlTree.Transform.Leaves
import SqlTree.Proofs.Format.CompactText
import SqlTree.Proofs.Format.ParameterOrder
import SqlTree.Proofs.Transform.NaiveMap
import SqlTree.Proofs.Transform.PathCopying
import SqlTree.Proofs.Format.AppendOnly
import SqlTree.Proofs.Text.Quoting
import SqlTree.Proofs.Text.Reading
import SqlTree.Proofs.Text.ReadBack
import SqlTree.Proofs.Format.Success
import SqlTree.Proofs.Format.Failure
import SqlTree.Proofs.Format.BoundValues
import SqlTree.Proofs.Format.QuotedNames
import SqlTree.Proofs.Format.WriterRuns
import SqlTree.Proofs.Format.UniqueReading
import SqlTree.Proofs.Text.Pieces
import SqlTree.Proofs.Format.Operand
import SqlTree.Proofs.Format.JoinNesting
import SqlTree.Proofs.Transform.Replay
import SqlTree.Proofs.Format.Rebinding
import SqlTree.Proofs.Format.Layouts
import SqlTree.Proofs.Format.ChangedNodes
import SqlTree.Proofs.Format.Ownership
import SqlTree.Proofs.Format.BaseNodes
import SqlTree.Proofs.Format.BalancedBrackets
import SqlTree.Proofs.Format.SingleRows
import SqlTree.Proofs.Format.EventLog
import SqlTree.Proofs.Format.BulkRows
import SqlTree.Proofs.Format.Indentation
import SqlTree.Proofs.Transform.Settled
