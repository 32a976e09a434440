/-!
# The exception classes

One constructor for each class of the program's exceptions that the modelled
code throws. A handler for `NetworkException` also takes the classes derived
from it, which `Exn.isNetwork` lists.
-/

namespace Spey

inductive Exn where
  | network
  | networkTimeout
  | invalidSMTPCommand
  | malformedDomain
  | malformedAddress
  | illegalRelaying
  | sql
  | authenticationCancelled
  /-- Not an exception of the program: the observation of an unbounded loop ends here. -/
  | unfinished
  deriving DecidableEq, Repr

/-- The classes that a handler for `NetworkException` catches. -/
def Exn.isNetwork : Exn → Bool
  | .network | .networkTimeout | .invalidSMTPCommand | .malformedDomain | .malformedAddress
  | .illegalRelaying => true
  | .sql | .authenticationCancelled | .unfinished => false

end Spey
