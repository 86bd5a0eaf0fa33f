set_option autoImplicit false

namespace BulkSync.Config

inductive Error
  | invalidKey (key reason : String)
  | duplicateKey (key : String)
  | invalidJob (job reason : String)
  | missingParameter (name : String)
  | invalidParameter (name reason : String)
  | workerPool (reason : String)
  deriving DecidableEq

def Error.message : Error → String
  | .invalidKey key reason => s!"invalid memory key `{key}`: {reason}"
  | .duplicateKey key => s!"memory key `{key}` is declared more than once"
  | .invalidJob job reason => s!"invalid map-reduce job `{job}`: {reason}"
  | .missingParameter name => s!"missing required parameter `{name}`"
  | .invalidParameter name reason => s!"invalid parameter `{name}`: {reason}"
  | .workerPool reason => "failed to build worker pool: " ++ reason

end BulkSync.Config
