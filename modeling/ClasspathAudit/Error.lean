/-!
Failures. A failure is a message, with a code where it belongs to one of the failure modes of a scan,
and with the failure that caused it; its text lists the chain from the outside in.
-/

namespace ClasspathAudit

/-- The stable name of a failure mode. -/
structure ErrorCode where
  name : String
deriving DecidableEq, Repr

namespace ErrorCode

/-- Bytes that are no usable class file. -/
def malformedClassFile : ErrorCode := ⟨"MALFORMED_CLASS_FILE"⟩

/-- A class file newer than the reader knows; what was read of it stays usable. -/
def unsupportedClassVersion : ErrorCode := ⟨"UNSUPPORTED_CLASS_VERSION"⟩

def unreadableArchive : ErrorCode := ⟨"UNREADABLE_ARCHIVE"⟩

/-- Nothing could be loaded; fails the run. -/
def emptyClasspath : ErrorCode := ⟨"EMPTY_CLASSPATH"⟩

/-- A report could not be written; fails the run. -/
def sinkFailure : ErrorCode := ⟨"SINK_FAILURE"⟩

/-- A setting is out of range; fails the run. -/
def invalidConfig : ErrorCode := ⟨"INVALID_CONFIG"⟩

end ErrorCode

/-- A message around an optional cause. -/
inductive Failure where
  | plain (message : String)
  | within (message : String) (cause : Failure)
  | coded (code : ErrorCode) (message : String)
  | codedWithin (code : ErrorCode) (message : String) (cause : Failure)
deriving DecidableEq, Repr

namespace Failure

def text : Failure → String
  | plain message => message
  | within message cause => message ++ ": " ++ cause.text
  | coded code message => "[" ++ code.name ++ "] " ++ message
  | codedWithin code message cause => "[" ++ code.name ++ "] " ++ message ++ ": " ++ cause.text

def code? : Failure → Option ErrorCode
  | plain _ => none
  | within _ cause => cause.code?
  | coded code _ => some code
  | codedWithin code _ _ => some code

def isFatal (failure : Failure) : Bool :=
  failure.code? == some .emptyClasspath || failure.code? == some .sinkFailure ||
    failure.code? == some .invalidConfig

def isDegraded (failure : Failure) : Bool :=
  failure.code? == some .unsupportedClassVersion

def cancelled : Failure := plain "context canceled"

end Failure

end ClasspathAudit
