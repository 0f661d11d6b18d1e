import ClasspathAudit.Report.Codec

/-!
Delivering finished reports to a writer that may fail.
-/

namespace ClasspathAudit.Sink

/-- What a writer failed with, as the encoder of a format reports it. -/
def writeFailure (format : ReportFormat) (reason : Failure) : Failure :=
  match format with
  | .yaml => .within "yaml: write error" reason
  | .json => reason

/-- Writes a document in the format of a name: the text that reached the writer, which fails with
`broken` where that is given. -/
def deliver (cancelled : Bool) (format : String) (broken : Option Failure) (document : Document) :
    Except Failure String :=
  let failed (reason : Failure) : Except Failure String :=
    .error (.codedWithin .sinkFailure ("failed to write " ++ format ++ " report") reason)
  if cancelled then .error (.codedWithin .sinkFailure "report not written" .cancelled)
  else
    match ReportFormat.ofName? format with
    | none => failed (.plain (ReportFormat.unsupported format))
    | some known =>
      match document.write known, broken with
      | .error reason, _ => failed reason
      | .ok _, some reason => failed (writeFailure known reason)
      | .ok text, none => .ok text

end ClasspathAudit.Sink
