import Figures.Main
import Figures.Proofs.Attempt.Drawing
import Figures.Proofs.Engine.Missing
import Figures.Proofs.Engine.Words
import Figures.Proofs.Blueprint.Admitted
import Figures.Proofs.Blueprint.Checked
import Figures.Proofs.Engine.Layouts
import Figures.Proofs.Param.Conforming
import Figures.Proofs.Request.Codec
import Figures.Proofs.Formula.Viable
import Figures.Proofs.Blueprint.LayerOrder
import Figures.Proofs.Order.Recorded
import Figures.Proofs.Blueprint.ViewBox
import Figures.Proofs.Engine.Called
import Figures.Proofs.Param.Audit
import Figures.Proofs.Param.Locality
import Figures.Proofs.Engine.Declared
import Figures.Proofs.Number.Canonical
import Figures.Proofs.Param.Scoped
import Figures.Proofs.Engine.Finite
import Figures.Proofs.Sheet.Lossless
import Figures.Proofs.Order.Batch
import Figures.Proofs.Formula.Quoting
import Figures.Proofs.Formula.Reported
import Figures.Proofs.Order.Imported
import Figures.Proofs.Template.Registered
import Figures.Proofs.Plane.Turns
import Figures.Proofs.Plane.Framed
