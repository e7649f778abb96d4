/-!
# `Verbosity` — how much is logged

Each application of the `-v` flag adds one level, from errors only to everything.
-/

namespace AnyCase

/-- The amount of logging asked for. -/
inductive Verbosity
  | off
  | error
  | warn
  | info
  | debug
  | trace
  deriving DecidableEq, Repr, Inhabited

namespace Verbosity

/-- The verbosity after a number of `-v` flags. -/
def ofCount : Nat → Verbosity
  | 0 => off
  | 1 => error
  | 2 => warn
  | 3 => info
  | 4 => debug
  | _ => trace

/-- The name of the verbosity. -/
def name : Verbosity → String
  | off => "Off"
  | error => "Error"
  | warn => "Warn"
  | info => "Info"
  | debug => "Debug"
  | trace => "Trace"

/-- The lowest level that is logged; nothing is without the flag. -/
def level? : Verbosity → Option String
  | off => none
  | error => some "ERROR"
  | warn => some "WARN"
  | info => some "INFO"
  | debug => some "DEBUG"
  | trace => some "TRACE"

end Verbosity

end AnyCase
