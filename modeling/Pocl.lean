import Pocl.Grammar.Reading
import Pocl.Main
import Pocl.Proofs.Command
import Pocl.Proofs.Diagnostic
import Pocl.Proofs.Grammar.Acceptance
import Pocl.Proofs.Grammar.Body
import Pocl.Proofs.Grammar.Context
import Pocl.Proofs.Grammar.Cursor
import Pocl.Proofs.Grammar.Dead
import Pocl.Proofs.Grammar.Image
import Pocl.Proofs.Grammar.Places
import Pocl.Proofs.Grammar.Precedence
import Pocl.Proofs.Grammar.Reading
import Pocl.Proofs.Grammar.Refusal
import Pocl.Proofs.Grammar.Sequence
import Pocl.Proofs.Grammar.Words
import Pocl.Proofs.Json.Decoding
import Pocl.Proofs.Location
import Pocl.Proofs.Text
import Pocl.Proofs.Token.Boundary
import Pocl.Proofs.Token.Cursor
import Pocl.Proofs.Token.Listing
import Pocl.Proofs.Tree.Outline
import Pocl.Proofs.Warning
import Pocl.Slice
