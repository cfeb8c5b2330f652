import Pseudocode.Grid.Editor
import Pseudocode.Grid.Viewer
import Pseudocode.Main
import Pseudocode.Proofs.Parsing.Soundness
import Pseudocode.Proofs.Evaluation.Running
import Pseudocode.Proofs.Parsing.Sequencing
import Pseudocode.Proofs.Parsing.Abandonment
import Pseudocode.Proofs.Evaluation.Purity
import Pseudocode.Proofs.Evaluation.Nesting
import Pseudocode.Proofs.Evaluation.Signals
import Pseudocode.Proofs.Grid.Commands
import Pseudocode.Proofs.Evaluation.LineByLine
import Pseudocode.Proofs.Grid.Boards
import Pseudocode.Proofs.Grid.Loading
import Pseudocode.Proofs.Grid.Exporting
import Pseudocode.Proofs.Grid.Editing
import Pseudocode.Proofs.Grid.Viewing
import Pseudocode.Proofs.Parsing.Placement
import Pseudocode.Proofs.Evaluation.Places
import Pseudocode.Proofs.Evaluation.Watching
import Pseudocode.Proofs.Evaluation.Reporting
import Pseudocode.Proofs.Scanning.Comments
import Pseudocode.Proofs.Scanning.Tiling
import Pseudocode.Proofs.Scanning.Rescanning
import Pseudocode.Proofs.Robot.Sessions
import Pseudocode.Proofs.Scanning.Joining
import Pseudocode.Proofs.Parsing.Spans
import Pseudocode.Proofs.Evaluation.Loops
import Pseudocode.Proofs.Evaluation.Sequences
import Pseudocode.Proofs.Robot.Moving
import Pseudocode.Proofs.Grid.Turning
import Pseudocode.Proofs.Grid.Placing
import Pseudocode.Proofs.Grid.Following
import Pseudocode.Proofs.Source.Lines
import Pseudocode.Proofs.Source.Underlining
import Pseudocode.Proofs.Parsing.Recording
import Pseudocode.Proofs.Parsing.Keeping
import Pseudocode.Proofs.Parsing.Range
import Pseudocode.Proofs.Parsing.Counting
