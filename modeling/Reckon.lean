import Reckon.Arithmetic.Floating
import Reckon.Calendar.Movement
import Reckon.Chain
import Reckon.Evaluation
import Reckon.Expr.Grammar
import Reckon.Proofs.Expr.Grammar
import Reckon.Proofs.Expr.Postorder
import Reckon.Proofs.Expr.Arrangement
import Reckon.Proofs.Expr.Reduction
import Reckon.Proofs.Expr.Scanning
import Reckon.Proofs.Composition
import Reckon.Proofs.Rational.Power
import Reckon.Proofs.Arithmetic.Growth
import Reckon.Proofs.Expr.Growth
import Reckon.Proofs.Acceptance
import Reckon.Proofs.Expr.Exactness
import Reckon.Proofs.RoundTrip
import Reckon.Proofs.Replay
import Reckon.Proofs.Calendar.Instants
import Reckon.Proofs.Binary64.Sign
import Reckon.Proofs.Calendar.Quantities
import Reckon.Proofs.Calendar.FixedShifts
import Reckon.Proofs.Calendar.Months
import Reckon.Proofs.Calendar.Zones
import Reckon.Proofs.WiderLimits
import Reckon.Proofs.Events
import Reckon.Proofs.Calendar.TimeLine
import Reckon.Proofs.Calendar.MonthShifts
import Reckon.Proofs.Calendar.Chains
import Reckon.Proofs.Expr.LexicalGrammar
import Reckon.Proofs.Calendar.MonthSequences
import Reckon.Proofs.Expr.Beginnings
import Reckon.Proofs.Binary64.Product
import Reckon.Proofs.Arithmetic.Sign
import Reckon.Proofs.Calendar.Monotone
import Reckon.Proofs.Decimal.Figures
import Reckon.Proofs.Decimal.Reading
import Reckon.Proofs.Decimal.Extension
import Reckon.Proofs.Decimal.Shortest
import Reckon.Proofs.Decimal.Scale
import Reckon.Proofs.Arithmetic.Division
import Reckon.Proofs.Arithmetic.Outcome
import Reckon.Proofs.Expr.Waiting
import Reckon.Proofs.Rational.Squaring
