import MapStyle.Binary64.Scalar
import MapStyle.Expr.Json
import MapStyle.Filter.Basic
import MapStyle.Proofs.Color.Slices
import MapStyle.Proofs.Curve.Bounds
import MapStyle.Proofs.Curve.LastStop
import MapStyle.Proofs.Curve.Solver
import MapStyle.Proofs.Evaluation.Coalescing
import MapStyle.Proofs.Expr.ArrayCheck
import MapStyle.Proofs.Expr.Colors
import MapStyle.Proofs.Expr.Constancy
import MapStyle.Proofs.Expr.Nodes
import MapStyle.Proofs.Expr.Sampling
import MapStyle.Proofs.Expr.Substitution
import MapStyle.Proofs.Expr.TypeSoundness
import MapStyle.Proofs.Expr.WellFormed
import MapStyle.Proofs.Filter.Complement
import MapStyle.Proofs.Filter.Membership
import MapStyle.Proofs.Operator.Precision
import MapStyle.Proofs.Operator.Threading
import MapStyle.Proofs.Parse.BranchOrder
import MapStyle.Proofs.Parse.Collecting
import MapStyle.Proofs.Parse.Expectation
import MapStyle.Proofs.Parse.RoundTrip
import MapStyle.Proofs.Property.BlankExpression
import MapStyle.Proofs.Property.CategoricalFunction
import MapStyle.Proofs.Property.ConstantFunction
import MapStyle.Proofs.Property.IdentityFunction
import MapStyle.Proofs.Property.LegacyFunction
import MapStyle.Proofs.Property.Warnings
import MapStyle.Proofs.Value.NumberText
import MapStyle.Property.StyleFunction
