/-!
# Faults

Everything that can go wrong is a `Fault`: a message under a machine-readable code, possibly with
the fault that caused it, or a failure that carries no code of its own because it was reported
from outside.

* `Code`: the codes, by their text; `Code.invalidInput` and its kin are the ones in use;
* `Fault`: a chain of causes;
* `Fault.text`: the whole chain as one line;
* `Fault.code?`: the code of the outermost layer that has one;
* `Fault.summary`: the chain up to its innermost coded layer, without outside wording.
-/

namespace ApiDiagrams

/-- A machine-readable kind of fault. -/
structure Code where
  text : String
  deriving DecidableEq, Repr, Inhabited

namespace Code

def invalidInput : Code := ⟨"INVALID_INPUT"⟩
def invalidFormat : Code := ⟨"INVALID_FORMAT"⟩
def invalidName : Code := ⟨"INVALID_NAME"⟩
def invalidPath : Code := ⟨"INVALID_PATH"⟩
def invalidDirection : Code := ⟨"INVALID_DIRECTION"⟩
def invalidGraphKind : Code := ⟨"INVALID_GRAPH_KIND"⟩
def contractViolation : Code := ⟨"CONTRACT_VIOLATION"⟩
def notFound : Code := ⟨"NOT_FOUND"⟩
def noProfile : Code := ⟨"NO_PROFILE"⟩
def toolUnavailable : Code := ⟨"TOOL_UNAVAILABLE"⟩
def toolFailed : Code := ⟨"TOOL_FAILED"⟩
def unsupportedFormat : Code := ⟨"UNSUPPORTED_FORMAT"⟩
def cache : Code := ⟨"CACHE_ERROR"⟩
def internal : Code := ⟨"INTERNAL_ERROR"⟩

end Code

/-- A failure with the chain of what led to it. -/
inductive Fault
  /-- A failure reported from outside, in its own words. -/
  | plain (text : String)
  /-- The work was called off. -/
  | cancelled
  /-- The time allowed ran out. -/
  | deadline
  /-- A fault of this library. -/
  | coded (code : Code) (message : String)
  /-- A fault of this library that another fault caused. -/
  | wrapped (code : Code) (message : String) (cause : Fault)
  /-- Where a fault arose; carries no code. -/
  | within (place : String) (cause : Fault)
  /-- A fault that may go away when the work is tried again. -/
  | transient (cause : Fault)
  /-- A storage backend that did not answer. -/
  | unavailable (cause : Fault)
  deriving Repr, DecidableEq

namespace Fault

instance : Inhabited Fault := ⟨.plain ""⟩

/-- What a storage backend that does not answer is called. -/
def unavailableText : String := "cache backend unavailable"

/-- The chain as one line, outermost layer first. -/
def text : Fault → String
  | .plain t => t
  | .cancelled => "context canceled"
  | .deadline => "context deadline exceeded"
  | .coded code message => code.text ++ ": " ++ message
  | .wrapped code message cause => code.text ++ ": " ++ message ++ ": " ++ cause.text
  | .within place cause => place ++ ": " ++ cause.text
  | .transient cause => cause.text
  | .unavailable cause => unavailableText ++ ": " ++ cause.text

/-- The code of the outermost layer that has one. -/
def code? : Fault → Option Code
  | .plain _ | .cancelled | .deadline => none
  | .coded code _ | .wrapped code _ _ => some code
  | .within _ cause | .transient cause | .unavailable cause => cause.code?

/-- The fault is of the given kind, judged by its outermost code. -/
def is (f : Fault) (code : Code) : Bool := f.code? == some code

/-- The message to show a user: that of the outermost coded layer, without the code. -/
def userMessage : Fault → String
  | .coded _ message | .wrapped _ message _ => message
  | f@(.within _ cause) => if cause.code?.isSome then cause.userMessage else f.text
  | f@(.unavailable cause) => if cause.code?.isSome then cause.userMessage else f.text
  | .transient cause => cause.userMessage
  | f => f.text

/-- The layout tool could not do its work; callers carry on without the image. -/
def isRenderFailure (f : Fault) : Bool :=
  f.is .toolUnavailable || f.is .toolFailed || f.is .unsupportedFormat

/-- The chain as one line, without the outside wording below the innermost coded layer. -/
def summary : Fault → String
  | .wrapped code message cause =>
    if cause.code?.isSome then code.text ++ ": " ++ message ++ ": " ++ cause.summary
    else code.text ++ ": " ++ message
  | .within place cause => place ++ ": " ++ cause.summary
  | .transient cause => cause.summary
  | .unavailable cause => unavailableText ++ ": " ++ cause.summary
  | f => f.text

/-- The fault, or something that caused it, may go away when the work is tried again. -/
def isTransient : Fault → Bool
  | .transient _ => true
  | .wrapped _ _ cause | .within _ cause | .unavailable cause => cause.isTransient
  | _ => false

/-- The fault comes from a storage backend that did not answer. -/
def isUnavailable : Fault → Bool
  | .unavailable _ => true
  | .wrapped _ _ cause | .within _ cause | .transient cause => cause.isUnavailable
  | _ => false

end Fault
end ApiDiagrams
