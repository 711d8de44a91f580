import Descent.Grammar.Fuel
import Descent.Main
import Descent.Proofs.Limit
import Descent.Proofs.Meaning
import Descent.Proofs.Ensures
import Descent.Proofs.Matching
import Descent.Proofs.Cursor
import Descent.Proofs.Reports
import Descent.Proofs.Halting
import Descent.Proofs.LeftRecursion
import Descent.Proofs.Ahead
import Descent.Proofs.NestedArray
import Descent.Proofs.Steps
import Descent.Proofs.Dice
import Descent.Proofs.ArrayFailures
import Descent.Proofs.Calls
import Descent.Proofs.Peg.Basic
import Descent.Proofs.Peg.Translation
import Descent.Proofs.Peg.Soundness
import Descent.Proofs.Peg.Completeness
import Descent.Proofs.Peg.Refinement
import Descent.Proofs.Simulation
import Descent.Proofs.Leaves
import Descent.Proofs.Rewriting
import Descent.Proofs.Context
import Descent.Proofs.Agreement
import Descent.Proofs.FailedStates
import Descent.Proofs.NamedPatterns
import Descent.Proofs.Silence
import Descent.Proofs.Debugging
import Descent.Proofs.Diagnostics
import Descent.Proofs.StaleResult
import Descent.Proofs.Displacement
import Descent.Proofs.Transcript
import Descent.Proofs.Attempts
import Descent.Proofs.Rounds
import Descent.Proofs.Repetition
import Descent.Proofs.Separation
import Descent.Proofs.EmptySeparator
import Descent.Proofs.RoundTrip
import Descent.Proofs.Possessive
import Descent.Proofs.Alternation
import Descent.Proofs.MonadLaws
import Descent.Proofs.Sequencing
import Descent.Proofs.EmptyMatch
import Descent.Proofs.LongestRun
import Descent.Proofs.Literals
