set_option autoImplicit false

namespace BulkSync

inductive Phase
  | execute
  | halted
  | failed
  deriving DecidableEq

def Phase.adjective : Phase → String
  | .execute => "executing"
  | .halted => "halted"
  | .failed => "failed"

end BulkSync
