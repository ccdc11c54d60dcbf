import Partitura.CommandLine
import Partitura.Tools

/-!
# The program

Answers calls of tools, one JSON object a line: the name of the tool under `tool`, its arguments
under `args`. Source files are read when a call asks for them.
-/

namespace Partitura

open CommandLine

def usage : String :=
  "usage: partitura [-h] [--transport \x7bstdio,http\x7d] [--port PORT]\n" ++
  "                 [--scores-dir DIR] [--library-dir DIR] [--debug]\n"

/-- The file in which a call looks for a source, if it is not at hand. -/
def Call.file? (ds : Documents) : Call → Option Path
  | .loadDocument path _ => some (.ofText path)
  | .exportYaml name | .getDocument name | .playbackSchedule name | .measureEvents name .. =>
    (Documents.nameIn name).toOption.bind fun name =>
      if (get? name ds.held).isSome then none else some (ds.fileOf name)
  | _ => none

def Call.ofLine? (line : String) : Option Call := do
  let fields ← (Json.read line).toOption.bind Data.record?
  let tool ← (get? "tool" fields).bind Data.asText?
  ofData? tool (((get? "args" fields).bind Data.record?).getD [])

/-- The documents with the file that a call looks for, if it can be read. -/
def fetch (ds : Documents) (call : Call) : IO Documents := do
  match call.file? ds with
  | none => return ds
  | some path =>
    try
      let bytes ← IO.FS.readBinFile path.text
      return ds.write path.names bytes.toList
    catch _ => return ds

/-- Answer line after line. -/
partial def serve (input output : IO.FS.Stream) (ds : Documents) : IO Unit := do
  let line ← input.getLine
  unless line.isEmpty do
    match Call.ofLine? line with
    | none =>
      output.putStrLn (Answer.refusal "Not a call of a tool" []).text
      output.flush
      serve input output ds
    | some call =>
      let (answer, ds) := (← fetch ds call).call call
      output.putStrLn answer.text
      output.flush
      serve input output ds

def surroundings : IO Surroundings := do
  let here ← IO.currentDir
  let home ← IO.getEnv "HOME"
  let set (name : String) : IO (List (String × String)) := do
    return ((← IO.getEnv name).map fun value => (name, value)).toList
  return {
    here := .ofText (toString here)
    home := .ofText (home.getD "/")
    values := (← set scoresVariable) ++ (← set libraryVariable) }

def run (args : List String) : IO UInt32 := do
  let around ← surroundings
  match (settings args).map (launch around around.here) with
  | .error .help =>
    IO.print usage
    return 0
  | .error .misuse =>
    IO.eprint usage
    return 2
  | .ok (.error f) =>
    IO.eprintln f.message
    return 1
  | .ok (.ok l) =>
    let files : Files := { root := .ofText "/" }
    let sources : Sources := { project := some l.library }
    if l.settings.debug then
      IO.eprintln ("Documents in " ++ l.scores.text ++ ", library in " ++ l.library.text)
    serve (← IO.getStdin) (← IO.getStdout) {
      files, sources, folder := around.here.resolve l.scores, library := .ofSources sources files }
    return 0

end Partitura

def main (args : List String) : IO UInt32 := Partitura.run args
