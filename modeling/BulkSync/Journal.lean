set_option autoImplicit false

namespace BulkSync.Journal

inductive Level
  | trace
  | debug
  | warn
  deriving DecidableEq

def Level.name : Level → String
  | .trace => "trace"
  | .debug => "debug"
  | .warn => "warn"

structure Line where
  level : Level
  text : String
  deriving DecidableEq

def Line.display (line : Line) : String := line.level.name ++ ": " ++ line.text

end BulkSync.Journal
