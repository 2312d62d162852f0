import WindowLex.Lexeme.Plain
import WindowLex.Main
import WindowLex.Proofs.Abandonment
import WindowLex.Proofs.Acceptance
import WindowLex.Proofs.Advances
import WindowLex.Proofs.BrokenFiles
import WindowLex.Proofs.Collecting
import WindowLex.Proofs.Construction
import WindowLex.Proofs.Ending
import WindowLex.Proofs.Environments
import WindowLex.Proofs.Escapes
import WindowLex.Proofs.Lines
import WindowLex.Proofs.Listing
import WindowLex.Proofs.Lookahead
import WindowLex.Proofs.Observation
import WindowLex.Proofs.Ownership
import WindowLex.Proofs.Peeking
import WindowLex.Proofs.Pulling
import WindowLex.Proofs.ReadAhead
import WindowLex.Proofs.Reading
import WindowLex.Proofs.Recording
import WindowLex.Proofs.Refills
import WindowLex.Proofs.Release
import WindowLex.Proofs.Representation
import WindowLex.Proofs.Requested
import WindowLex.Proofs.Requests
import WindowLex.Proofs.Retelling
import WindowLex.Proofs.Rows
import WindowLex.Proofs.Rules
import WindowLex.Proofs.Runs
import WindowLex.Proofs.Sessions
import WindowLex.Proofs.Spelling
import WindowLex.Proofs.Surplus
import WindowLex.Proofs.Tables
import WindowLex.Proofs.Telling
import WindowLex.Proofs.TextFiles
import WindowLex.Proofs.Tiling
import WindowLex.Proofs.Utf8
import WindowLex.Text.Cursor
