/-
A scientific desk calculator: expressions are read from text, evaluated in
double precision and shown in shortest decimal, in a session with memory and
history, in a service for many users, and on the command line.
-/

import DeskCalculator.Main
import DeskCalculator.Proofs.Balance
import DeskCalculator.Proofs.HalfUp
import DeskCalculator.Proofs.Leaves
import DeskCalculator.Proofs.Limits
import DeskCalculator.Proofs.Modes
import DeskCalculator.Proofs.Outcome
import DeskCalculator.Proofs.Pages
import DeskCalculator.Proofs.PostOrder
import DeskCalculator.Proofs.Posting
import DeskCalculator.Proofs.Recursion
import DeskCalculator.Proofs.Spacing
import DeskCalculator.Proofs.Splicing
import DeskCalculator.Proofs.Traversal
import DeskCalculator.Proofs.Unambiguity
