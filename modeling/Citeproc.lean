import Citeproc.Output
import Citeproc.Names.Global
import Citeproc.Names.Graph
import Citeproc.Names.RefIr
import Citeproc.Ir.Traversal
import Citeproc.Ir.Recompute
import Citeproc.Ir.Collapse
