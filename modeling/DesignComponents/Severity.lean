/-! How much a finding matters. -/

set_option autoImplicit false

namespace DesignComponents

inductive Severity where
  | error
  | warning
  | info
  | suggestion
  deriving DecidableEq, Repr, Inhabited

def Severity.name : Severity → String
  | error => "error"
  | warning => "warning"
  | info => "info"
  | suggestion => "suggestion"

end DesignComponents
