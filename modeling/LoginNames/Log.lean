/-! # Log entries

A run says what it does in a log: a list of messages, each with a level. -/

set_option autoImplicit false

namespace LoginNames

inductive Level
  | debug
  | info
  | warn
  | error
deriving DecidableEq

namespace Level

def word : Level → String
  | debug => "DEBUG"
  | info => "INFO"
  | warn => "WARN"
  | error => "ERROR"

/-- Higher is graver. -/
def rank : Level → Nat
  | debug => 2
  | info => 3
  | warn => 4
  | error => 5

end Level

structure LogEntry where
  level : Level
  message : String
deriving DecidableEq

abbrev Log := List LogEntry

end LoginNames
