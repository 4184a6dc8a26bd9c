import Classwright.Main
import Classwright.Proofs.Closure
import Classwright.Proofs.Dangling
import Classwright.Proofs.Defaults
import Classwright.Proofs.EndpointNames
import Classwright.Proofs.Fields
import Classwright.Proofs.Frame
import Classwright.Proofs.Generation
import Classwright.Proofs.Graph.Search
import Classwright.Proofs.Imports
import Classwright.Proofs.Indentation
import Classwright.Proofs.Literals
import Classwright.Proofs.Nesting
import Classwright.Proofs.Overrides
import Classwright.Proofs.Paths
import Classwright.Proofs.Relationship
import Classwright.Proofs.Requests
import Classwright.Proofs.Shape
import Classwright.Proofs.Swagger.Override
import Classwright.Proofs.Table.Calls
import Classwright.Proofs.Table.Constant
import Classwright.Proofs.Table.Distinct
import Classwright.Proofs.Table.Navigation
import Classwright.Proofs.Table.Null
import Classwright.Proofs.Table.Query
import Classwright.Proofs.Table.Reading
import Classwright.Proofs.Tagging
import Classwright.Proofs.Termination
import Classwright.Proofs.UrlFields
import Classwright.Proofs.UrlNames
