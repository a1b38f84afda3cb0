import InlineAudit.Inlineable
import InlineAudit.Main
import InlineAudit.Digest.Sha256
import InlineAudit.Proofs.Text.ByteOrder
import InlineAudit.Proofs.Text.Pieces
import InlineAudit.Proofs.Check.Outcome
import InlineAudit.Proofs.Text.Decoding
import InlineAudit.Proofs.Log.Reading
import InlineAudit.Proofs.Pending.Scan
import InlineAudit.Proofs.Pending.Validation
import InlineAudit.Proofs.Pending.Issues
import InlineAudit.Proofs.Check.Verdict
import InlineAudit.Proofs.Check.Credit
import InlineAudit.Proofs.Diagnostic.LineEnd
import InlineAudit.Proofs.Diagnostic.Grammar
import InlineAudit.Proofs.Log.Listing
import InlineAudit.Proofs.Log.Reader
import InlineAudit.Proofs.Check.Delivery
import InlineAudit.Proofs.Pending.History
import InlineAudit.Proofs.Candidates.Merge
import InlineAudit.Proofs.Command.Inputs
import InlineAudit.Proofs.Command.Verdict
import InlineAudit.Proofs.Candidates.Standing
import InlineAudit.Proofs.Candidates.Validity
import InlineAudit.Proofs.CandidatesFile.Written
import InlineAudit.Proofs.Check.Independence
import InlineAudit.Proofs.Candidates.Arrangement
import InlineAudit.Proofs.Check.Arrangement
import InlineAudit.Proofs.CandidatesFile.RoundTrip
import InlineAudit.Proofs.Yaml.Cursor
import InlineAudit.Proofs.Yaml.Line
import InlineAudit.Proofs.Check.Enumeration
import InlineAudit.Proofs.Candidates.Assembly
import InlineAudit.Proofs.Candidates.Digest
import InlineAudit.Proofs.Command.Symbol
import InlineAudit.Proofs.Command.Building
import InlineAudit.Proofs.Check.Joining
import InlineAudit.Proofs.Text.Lossy
import InlineAudit.Proofs.Command.Init
