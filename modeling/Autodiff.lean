import Autodiff.Session
import Autodiff.Proofs.Calculus.Slope
import Autodiff.Proofs.Capability.Coercion
import Autodiff.Proofs.Capability.Doubles
import Autodiff.Proofs.Capability.SmallIntegers
import Autodiff.Proofs.Capability.Widths
import Autodiff.Proofs.Expr.Occurrence
import Autodiff.Proofs.Expr.Rebinding
import Autodiff.Proofs.Expr.StackMachine
import Autodiff.Proofs.Expr.Substitution
import Autodiff.Proofs.Expr.Traversal
import Autodiff.Proofs.Foreign
import Autodiff.Proofs.Gradient.Agreement
import Autodiff.Proofs.Gradient.Congruence
import Autodiff.Proofs.Gradient.Contribution
import Autodiff.Proofs.Gradient.Derivative
import Autodiff.Proofs.Gradient.Faults
import Autodiff.Proofs.Gradient.ForwardMode
import Autodiff.Proofs.Gradient.HigherDerivatives
import Autodiff.Proofs.Gradient.Leaves
import Autodiff.Proofs.Gradient.Negation
import Autodiff.Proofs.Gradient.Printed
import Autodiff.Proofs.Gradient.Rebinding
import Autodiff.Proofs.Gradient.SignedZero
import Autodiff.Proofs.Gradient.Variables
import Autodiff.Proofs.Graph.Dot
import Autodiff.Proofs.Graph.Failure
import Autodiff.Proofs.Graph.Listing
import Autodiff.Proofs.Graph.Quoting
import Autodiff.Proofs.Scalar.Literals
import Autodiff.Proofs.Syntax.Descent
import Autodiff.Proofs.Syntax.NewValues
import Autodiff.Proofs.Syntax.Phrase
import Autodiff.Proofs.Syntax.Recognition
import Autodiff.Proofs.Syntax.Refusal
import Autodiff.Proofs.Syntax.RoundTrip
import Autodiff.Proofs.Syntax.Viability
