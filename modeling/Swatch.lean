import Swatch.Journal
import Swatch.Main
import Swatch.Sheet.Edit
import Swatch.Proofs.Direct
import Swatch.Proofs.Appending
import Swatch.Proofs.Assembly
import Swatch.Proofs.Denotation
import Swatch.Proofs.Operations
import Swatch.Proofs.Repetition
import Swatch.Proofs.Capture
import Swatch.Proofs.Meaning
import Swatch.Proofs.Leftmost
import Swatch.Proofs.Acceptance
import Swatch.Proofs.Collapse
import Swatch.Proofs.Loose
import Swatch.Proofs.Canonical
import Swatch.Proofs.Runs
import Swatch.Proofs.Closing
import Swatch.Proofs.Stray
import Swatch.Proofs.Entries
import Swatch.Proofs.Faults
import Swatch.Proofs.Translucent
import Swatch.Proofs.Hosting
import Swatch.Proofs.Discipline
