import ArrowScript.Tree.View

/-!
# Internal errors

Some failures are not problems of the source but of the use of the library: an
analysis is asked about a kind of node for which it has no rule, or a stage that was
put in from outside fails.
-/

namespace ArrowScript

/-- A failure that no source can cause. -/
inductive InternalError where
  | noResolutionRule (kind : NodeKind)
  | noInferenceRule (kind : NodeKind)
  | unknownAscription (kind : NodeKind)
  | unexpected (cause : String)
  | reported (text : String)
  deriving DecidableEq, Repr

/-- The text that reports the failure. -/
def InternalError.message : InternalError → String
  | noResolutionRule kind => s!"Name resolver has no rule for node '{kind.name}'."
  | noInferenceRule kind => s!"Type inferrer has no rule for node '{kind.name}'."
  | unknownAscription kind => s!"Unknown type annotation '{kind.name}'."
  | unexpected cause => s!"An unexpected internal error occurred: {cause}"
  | reported text => text

end ArrowScript
