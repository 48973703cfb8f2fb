import ProductSegments.Sample.Report

/-! # The program

  Reads rule text from standard input and prints the report on it.
-/

namespace ProductSegments

/-- Reads a stream to its end. -/
partial def readToEnd (stream : IO.FS.Stream) (bytes : ByteArray := .empty) : IO ByteArray := do
  let chunk ← stream.read 4096
  if chunk.isEmpty then return bytes else readToEnd stream (bytes ++ chunk)

end ProductSegments

/-- Prints the report on the rules of standard input. Input that is no text ends
    the program with status 101. -/
def main : IO UInt32 := do
  match String.fromUTF8? (← ProductSegments.readToEnd (← IO.getStdin)) with
  | none =>
    IO.eprintln "failed to read rules from stdin"
    return 101
  | some rules =>
    let report := ProductSegments.Report.ofRules rules
    IO.print report.outputText
    IO.eprint report.errorText
    return report.status.toUInt32
