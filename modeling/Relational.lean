import Relational.Command.Session
import Relational.Document.Reader
import Relational.Main
import Relational.Proofs.Choices
import Relational.Proofs.Circles
import Relational.Proofs.Coherence
import Relational.Proofs.Complement
import Relational.Proofs.Disequality
import Relational.Proofs.Finite
import Relational.Proofs.Freshness
import Relational.Proofs.Parsing.Constructed
import Relational.Proofs.Parsing.Trailing
import Relational.Proofs.Quotients
import Relational.Proofs.Reflexive
import Relational.Proofs.Sequence
import Relational.Proofs.Soundness
import Relational.Proofs.Symmetry
import Relational.Proofs.Faults
import Relational.Proofs.Verdict
import Relational.Proofs.Dialogue
import Relational.Proofs.Equality
import Relational.Proofs.Integers
import Relational.Proofs.Backtracking
