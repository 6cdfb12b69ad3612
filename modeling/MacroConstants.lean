import MacroConstants.Main
import MacroConstants.Host.Scripted
import MacroConstants.Proofs.Discovery
import MacroConstants.Proofs.Report
import MacroConstants.Proofs.Json.Record
import MacroConstants.Proofs.Literal
import MacroConstants.Proofs.Settings.Rendered
import MacroConstants.Proofs.Settings.Blame
import MacroConstants.Proofs.Settings.Strings
import MacroConstants.Proofs.Settings.Sequence
import MacroConstants.Proofs.Probe
import MacroConstants.Proofs.Cleanup
import MacroConstants.Proofs.Explained
import MacroConstants.Proofs.Selection
import MacroConstants.Proofs.Dump.Arrangement
import MacroConstants.Proofs.Dump.Rendered
import MacroConstants.Proofs.Layout
import MacroConstants.Proofs.Columns
import MacroConstants.Proofs.Convergence
import MacroConstants.Proofs.Memo
import MacroConstants.Proofs.Isolation
import MacroConstants.Proofs.Invocations
import MacroConstants.Proofs.Json.Decoded
import MacroConstants.Proofs.CommandLine.Effective
import MacroConstants.Proofs.CommandLine.Ends
import MacroConstants.Proofs.Session
import MacroConstants.Proofs.Preprocessor
import MacroConstants.Proofs.Interleaving
import MacroConstants.Proofs.Additions
import MacroConstants.Proofs.Canonical
import MacroConstants.Proofs.Units
import MacroConstants.Proofs.Environment
import MacroConstants.Proofs.Json.LeadingZeros
