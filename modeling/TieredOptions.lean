import TieredOptions.Main
import TieredOptions.Proofs.ErrorOrder
import TieredOptions.Proofs.Provenance
import TieredOptions.Proofs.Stability
import TieredOptions.Proofs.Transparency
import TieredOptions.Proofs.Tiers
import TieredOptions.Proofs.Twins
import TieredOptions.Proofs.Alteration
import TieredOptions.Proofs.Secrecy
import TieredOptions.Proofs.Nesting
import TieredOptions.Proofs.Assignments
import TieredOptions.Proofs.Ending
import TieredOptions.Proofs.Failure
import TieredOptions.Proofs.Typing
import TieredOptions.Proofs.GrammarReport
import TieredOptions.Proofs.Isolation
import TieredOptions.Proofs.Moments
import TieredOptions.Proofs.Cycles
import TieredOptions.Proofs.Retries
import TieredOptions.Proofs.Grouping
import TieredOptions.Proofs.Laziness
import TieredOptions.Proofs.Completion
import TieredOptions.Proofs.Repetition
import TieredOptions.Proofs.Stepwise
import TieredOptions.Proofs.Decoding
import TieredOptions.Proofs.Sections
import TieredOptions.Proofs.Loading
import TieredOptions.Proofs.Entries
import TieredOptions.Proofs.Reports
