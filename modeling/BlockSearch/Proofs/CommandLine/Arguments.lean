import BlockSearch.CommandLine.Arguments
import BlockSearch.Proofs.Text.Decimal
import BlockSearch.Request.Basic

set_option autoImplicit false

namespace BlockSearch.CommandLine

theorem all_cons (mode : Mode) (state next : State) (argument : Text) (rest : List Text)
    (step : state.next mode argument = .ok next) : State.all mode state (argument :: rest) = next.all mode rest := by
  rw [State.all, step]

end BlockSearch.CommandLine
