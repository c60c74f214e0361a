import ClassText.Cursor.Character
import ClassText.Journal
import ClassText.Main
import ClassText.Proofs.Blind.Reader
import ClassText.Proofs.Concatenation
import ClassText.Proofs.Formatting
import ClassText.Proofs.Grouping
import ClassText.Proofs.Location
import ClassText.Proofs.Safety
import ClassText.Proofs.Tiling
import ClassText.Proofs.Truncation
import ClassText.Proofs.Writing
import ClassText.Proofs.Indifference
import ClassText.Proofs.Course
import ClassText.Proofs.Succession
import ClassText.Proofs.Iteration
import ClassText.Proofs.Reporting
import ClassText.Proofs.Batching
import ClassText.Proofs.Loading
import ClassText.Proofs.Tiers
import ClassText.Proofs.Regrouping
import ClassText.Proofs.Munch
import ClassText.Proofs.Numeral
import ClassText.Proofs.Rejection
import ClassText.Proofs.Shortage
import ClassText.Proofs.Decoding
import ClassText.Proofs.Collecting
import ClassText.Proofs.Standing
import ClassText.Proofs.Preservation
import ClassText.Proofs.Progress
