import ScriptScan.Main
import ScriptScan.Proofs.Scan.Tiling
import ScriptScan.Proofs.Scan.ByLine
import ScriptScan.Proofs.Prompt.Session
import ScriptScan.Proofs.Report.Substitution
import ScriptScan.Proofs.Scan.Automaton
import ScriptScan.Proofs.Listing.Capacity
import ScriptScan.Proofs.Report.Faults
import ScriptScan.Proofs.Number.Layout
import ScriptScan.Proofs.Scan.Numbers
import ScriptScan.Proofs.Scan.Canonical
import ScriptScan.Proofs.Listing.Reading
import ScriptScan.Proofs.Listing.Display
import ScriptScan.Proofs.Scan.Places
import ScriptScan.Proofs.Text.Encoding
import ScriptScan.Proofs.Command.Script
import ScriptScan.Proofs.Prompt.Decoding
import ScriptScan.Proofs.Scan.Division
import ScriptScan.Proofs.Scan.Prolonging
import ScriptScan.Proofs.Scan.Lexemes
import ScriptScan.Proofs.Scan.Clearing
import ScriptScan.Proofs.Scan.Exchanging
import ScriptScan.Proofs.Report.Reading
import ScriptScan.Proofs.Scan.Records
import ScriptScan.Proofs.Report.Recording
import ScriptScan.Proofs.Prompt.Episodes
import ScriptScan.Proofs.Prompt.Coloring
import ScriptScan.Proofs.Command.Logging
import ScriptScan.Proofs.Scan.Progress
