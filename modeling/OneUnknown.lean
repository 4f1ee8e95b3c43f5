import OneUnknown.Main
import OneUnknown.Proofs.Folding
import OneUnknown.Proofs.Solving
import OneUnknown.Proofs.Blanks
import OneUnknown.Proofs.Printing
import OneUnknown.Proofs.Parentheses
import OneUnknown.Proofs.Shape
import OneUnknown.Proofs.Rejection
import OneUnknown.Proofs.Replay
import OneUnknown.Proofs.Machine.Answer
import OneUnknown.Proofs.Counts
import OneUnknown.Proofs.LowestTerms
import OneUnknown.Proofs.Rounding
import OneUnknown.Proofs.Sessions
import OneUnknown.Proofs.Layout
import OneUnknown.Proofs.Polynomials
import OneUnknown.Proofs.Unsupported
import OneUnknown.Proofs.Accounts
import OneUnknown.Proofs.Division
import OneUnknown.Proofs.Magnitudes
import OneUnknown.Proofs.Segments
