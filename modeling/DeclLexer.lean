import DeclLexer.Main
import DeclLexer.Proofs.Tiling
import DeclLexer.Proofs.Concatenation
import DeclLexer.Proofs.Extension
import DeclLexer.Proofs.Relayout
import DeclLexer.Proofs.Diagnostic
import DeclLexer.Proofs.Listing
import DeclLexer.Proofs.Fraction
import DeclLexer.Proofs.RoundTrip
import DeclLexer.Proofs.Lookup
import DeclLexer.Proofs.Message
import DeclLexer.Proofs.Caret
import DeclLexer.Proofs.Command
import DeclLexer.Proofs.Cursor
