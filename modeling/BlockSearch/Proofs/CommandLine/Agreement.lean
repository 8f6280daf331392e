import BlockSearch.Proofs.CommandLine.Arguments
import BlockSearch.Proofs.CommandLine.RoundTrips
import BlockSearch.Proofs.Engine.Outcome
import BlockSearch.Proofs.Report.Renditions
import BlockSearch.Proofs.Text.Pieces

set_option autoImplicit false

namespace BlockSearch

namespace CommandLine

section Agreement

variable (refuses : Symbol.Refusal) (world : World) (request : Request)

end Agreement

end CommandLine

end BlockSearch
