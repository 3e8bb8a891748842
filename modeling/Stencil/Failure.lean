import Stencil.Config.Error
import Stencil.Files.Glob
import Stencil.Generate.Result
import Stencil.Template.Compiled

/-!
Failures: all that can keep a command from its result, each as its cause.
-/

namespace Stencil

/-- The cause of a failure. -/
inductive Failure where
  | template (cause : Template.Error)
  | render (fault : Template.RenderFault)
  | data (cause : Data.Error)
  | config (cause : Config.Error)
  | generation (cause : Generate.Error)
  | file (fault : Files.Fault)
  | glob (fault : Files.GlobFault)
  deriving Repr

namespace Failure

/-- The diagnostic of a failure, if its kind has a code. -/
def diagnostic? : Failure → Option Diagnostic
  | template cause => some cause.diagnostic
  | render (.stopped (.error cause)) => some cause.diagnostic
  | render _ => none
  | data (.unsupported (.key _)) => none
  | data cause => some cause.diagnostic
  | config cause => some cause.diagnostic
  | generation cause => some cause.diagnostic
  | file _ => none
  | glob _ => none

/-- The message of a failure. -/
def message : Failure → String
  | template cause => cause.diagnostic.message
  | render fault => fault.message
  | data cause => cause.diagnostic.message
  | config cause => cause.diagnostic.message
  | generation cause => cause.diagnostic.message
  | file fault => fault.message
  | glob fault => fault.message

/-- The code of a failure, if its kind has one. -/
def code? (failure : Failure) : Option String :=
  failure.diagnostic?.map Diagnostic.code

end Failure

end Stencil
