import FormulaAudit.Main
import FormulaAudit.Proofs.Dependency.Budget
import FormulaAudit.Proofs.Dependency.Circular
import FormulaAudit.Proofs.Dependency.DepthFirst
import FormulaAudit.Proofs.Dependency.Formulas
import FormulaAudit.Proofs.Expr.Rendering
import FormulaAudit.Proofs.Formula.Shape
import FormulaAudit.Proofs.Lint.Options
import FormulaAudit.Proofs.Lint.Sheet
import FormulaAudit.Proofs.Token.RoundTrip
import FormulaAudit.Proofs.Expr.Rejection
import FormulaAudit.Proofs.Expr.Confinement
import FormulaAudit.Proofs.Formula.Reach
import FormulaAudit.Proofs.Expr.Unmatched
import FormulaAudit.Proofs.Formula.Balance
import FormulaAudit.Proofs.Lint.Validity
import FormulaAudit.Proofs.Token.LetterCase
import FormulaAudit.Proofs.Expr.Renaming
import FormulaAudit.Proofs.Formula.LetterCase
import FormulaAudit.Proofs.Address.Column
import FormulaAudit.Proofs.Address.Cell
import FormulaAudit.Proofs.Address.Range
import FormulaAudit.Proofs.Formula.DivisionPattern
import FormulaAudit.Proofs.Formula.Division
import FormulaAudit.Proofs.Expr.Complexity
import FormulaAudit.Proofs.Address.Markers
import FormulaAudit.Proofs.Dependency.SelfReference
import FormulaAudit.Proofs.Workbook.Rows
import FormulaAudit.Proofs.Expr.Frames
