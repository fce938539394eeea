import Keystroke.Config.Document
import Keystroke.Proofs.InsertedEnd
import Keystroke.Proofs.Safety
import Keystroke.Proofs.LinesAppend
import Keystroke.Proofs.Caret
import Keystroke.Proofs.Indentation
import Keystroke.Proofs.OneLine
import Keystroke.Proofs.TypedCharacter
import Keystroke.Proofs.AutoClosing
import Keystroke.Proofs.BrokenSelection
import Keystroke.Proofs.ShiftBack
import Keystroke.Proofs.TabRun
import Keystroke.Proofs.Surround
import Keystroke.Proofs.JoinedLines
import Keystroke.Proofs.BrokenLine
import Keystroke.Proofs.ClosedBlock
import Keystroke.Proofs.CanonicalIndent
import Keystroke.Proofs.FailingRules
import Keystroke.Proofs.SelectionDirection
import Keystroke.Proofs.NewLines
import Keystroke.Proofs.Completion
import Keystroke.Proofs.JoinedSelection
import Keystroke.Proofs.AddedLines
import Keystroke.Proofs.InsertedLines
import Keystroke.Proofs.TypingRun
import Keystroke.Proofs.TabStop
import Keystroke.Proofs.CoveredText
import Keystroke.Proofs.NormalForm
import Keystroke.Proofs.TokenLookup
import Keystroke.Proofs.LastLine
import Keystroke.Proofs.ClusterColumn
import Keystroke.Proofs.Construction
import Keystroke.Proofs.ByteOffsets
import Keystroke.Proofs.CheckedOperation
