import Snippet.Diagnostic.Problem

/-!
Diagnostics as they are shown to a caller, and the options that suppress or escalate warnings.
-/

namespace Snippet

/-- Whether a diagnostic merely warns. -/
inductive Severity where
  | warning
  | error
deriving DecidableEq, Repr

/-- A message about a source text. -/
structure Diagnostic where
  code : String
  message : String
  severity : Severity
  /-- Set when the options turned a warning into an error. -/
  escalated : Bool
  location : Option Location
deriving DecidableEq, Repr

namespace Diagnostic

/-- A diagnostic blocks when no image may be produced because of it. -/
def isBlocking (diagnostic : Diagnostic) : Bool :=
  diagnostic.escalated || diagnostic.severity == .error

/-- A warning turned into an error; errors stay as they are. -/
def escalate (diagnostic : Diagnostic) : Diagnostic :=
  match diagnostic.severity with
  | .warning => { diagnostic with severity := .error, escalated := true }
  | .error => diagnostic

/-- The code and the message, as a listing shows them. -/
def text (diagnostic : Diagnostic) : String := s!"{diagnostic.code}: {diagnostic.message}"

end Diagnostic

/-- The diagnostic of a finding, located in the source text. -/
def Finding.toDiagnostic (source : String) (finding : Finding) : Diagnostic where
  code := finding.problem.code
  message := finding.problem.message
  severity := if finding.problem.isWarning then .warning else .error
  escalated := false
  location := some (Location.ofOffset source finding.span.start)

/-- What a caller decides about warnings. -/
structure WarningPolicy where
  warningsAsErrors : Bool
  suppressed : List String
deriving DecidableEq, Repr

namespace WarningPolicy

/-- Every warning is reported and none is an error. -/
def default : WarningPolicy := ⟨false, []⟩

/-- Errors are kept whatever their code; warnings unless their code is suppressed. -/
def keeps (policy : WarningPolicy) (diagnostic : Diagnostic) : Bool :=
  diagnostic.severity == .error || !policy.suppressed.contains diagnostic.code

/-- Suppressed warnings are dropped, then the others escalated if the policy asks for it. -/
def apply (policy : WarningPolicy) (diagnostics : List Diagnostic) : List Diagnostic :=
  (diagnostics.filter policy.keeps).map fun diagnostic =>
    if policy.warningsAsErrors then diagnostic.escalate else diagnostic

end WarningPolicy

end Snippet
