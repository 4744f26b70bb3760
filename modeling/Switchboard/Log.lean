/-!
Lines worth an operator's attention, kept as values beside the results that they belong to.
-/

namespace Switchboard

inductive Level where
  | warn
  | error
  deriving DecidableEq, Repr, Inhabited

def Level.name : Level → String
  | .warn => "WARN"
  | .error => "ERROR"

structure LogLine where
  level : Level
  text : String
  deriving DecidableEq, Repr, Inhabited

def LogLine.render (l : LogLine) : String := l.level.name ++ " " ++ l.text

def warning (text : String) : LogLine := ⟨.warn, text⟩

def failure (text : String) : LogLine := ⟨.error, text⟩

end Switchboard
