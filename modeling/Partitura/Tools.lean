import Partitura.Documents
import Partitura.Stored.Query
import Partitura.Yaml.Writer

/-!
# Tools

What an editor can ask for, and the answers as JSON. Whatever goes wrong is an answer too: its
status is `error` and it says why.
-/

namespace Partitura

open Data Number

inductive Call
  | compile (source : Data) (withTimeline strict : Bool)
  | exportYaml (name : Data)
  | getDocument (name : Data)
  | listDocuments
  | listLibrary
  | loadDocument (path : String) (name : Option String)
  | measureEvents (name measure instrument voice : Data)
  | playbackSchedule (name : Data)
  | updateDocument (name source : String)

namespace Call

def toolNames : List String :=
  ["omniscore_compile", "omniscore_export_yaml", "omniscore_get_document",
    "omniscore_list_documents", "omniscore_list_library", "omniscore_load_document",
    "omniscore_measure_events", "omniscore_playback_schedule", "omniscore_update_document"]

/-- The arguments that a tool takes, by its name. -/
def parameters : String → List String
  | "omniscore_compile" => ["source", "include_timeline", "strict"]
  | "omniscore_load_document" => ["path", "name"]
  | "omniscore_measure_events" => ["name", "measure", "instrument", "voice"]
  | "omniscore_update_document" => ["name", "source"]
  | "omniscore_list_documents" => []
  | "omniscore_list_library" => []
  | _ => ["name"]

/-- The call of a tool by its name, with arguments by theirs. A flag is any data that count as
true or not. -/
def ofData? (tool : String) (args : List (String × Data)) : Option Call := do
  guard (args.all fun (name, _) => (parameters tool).contains name)
  match tool with
  | "omniscore_compile" =>
    let flag (name : String) (default : Bool) : Bool := ((get? name args).map truthy).getD default
    return compile (← get? "source" args) (flag "include_timeline" true)
      (flag "strict" false)
  | "omniscore_export_yaml" => return exportYaml (← get? "name" args)
  | "omniscore_get_document" => return getDocument (← get? "name" args)
  | "omniscore_list_documents" => return listDocuments
  | "omniscore_list_library" => return listLibrary
  | "omniscore_load_document" =>
    return loadDocument (← need asText? "path" args) (← maybe asText? "name" args)
  | "omniscore_measure_events" =>
    return measureEvents (← get? "name" args) (← get? "measure" args)
      ((get? "instrument" args).getD .null) ((get? "voice" args).getD .null)
  | "omniscore_playback_schedule" => return playbackSchedule (← get? "name" args)
  | "omniscore_update_document" =>
    return updateDocument (← need asText? "name" args) (← need asText? "source" args)
  | _ => none

end Call

inductive Answer
  | success (fields : List (String × Data))
  | refusal (message : String) (more : List (String × Data))

namespace Answer

def toData : Answer → Data
  | success fields => .record (("status", .text "success") :: fields)
  | refusal message more =>
    .record ([("status", .text "error"), ("message", .text message)] ++ more)

def text (r : Answer) : String :=
  match Json.write none r.toData with
  | .ok s => s
  | .error f =>
    "\x7b\"status\": \"error\", \"message\": " ++ Json.writeText f.message ++ "\x7d"

end Answer

def Document.toData (d : Document) : Except Fault (List (String × Data)) := do
  let summary ← match d.score with
    | some s => s.stored.summary
    | none => pure .null
  return [
    ("name", .text d.name),
    ("path", d.path.elim .null fun p => .text p.text),
    ("title", d.score.elim .null fun s => .text s.header.title),
    ("events", .int (d.score.elim 0 fun s => s.timeline.length)),
    ("stale", .flag d.isStale),
    ("error", d.error.elim .null .text),
    ("summary", summary),
    ("diagnostics", d.notices.toData)]

def Listing.toData (l : Listing) : Data :=
  .record [
    ("name", .text l.name), ("path", l.path.elim .null fun p => .text p.text),
    ("loaded", .flag l.loaded)]

def Kit.listed (k : Kit) : Data :=
  .record [
    ("name", .text k.name), ("description", .text k.description),
    ("symbols", .texts ((k.map.map (·.1)).mergeSort (· ≤ ·)))]

def Tuning.listed (t : Tuning) : Data :=
  .record [
    ("name", .text t.name), ("description", .text t.description), ("strings", .texts t.strings)]

namespace Stored.Score

def scheduled (s : Stored.Score) (e : Partitura.Event) : Except Fault Data := do
  let time ← s.toSeconds (.int e.start)
  let length ← s.toSeconds (.int (e.stop - e.start))
  return .record [
    ("time", .float (time.roundTo 6)), ("duration", .float (length.roundTo 6)),
    ("pitches", .list (e.pitches.map fun p => .int p.midi)), ("velocity", .scalar e.velocity),
    ("instrument_id", .text e.instrument), ("voice_id", .text e.voice)]

end Stored.Score

namespace Score

def schedule (s : Score) : Except Fault (List (String × Data)) := do
  let stored := s.stored
  let entries ← (s.timeline.filter fun e => !e.pitches.isEmpty).mapM stored.scheduled
  return [
    ("tempo", .int s.header.tempo), ("seconds_per_tick", .float (← stored.secondsPerTick)),
    ("duration_seconds", .float (← stored.durationSeconds)), ("schedule", .list entries)]

def measureFields (s : Score) (measure instrument voice : Data) :
    Except Fault (List (String × Data)) := do
  let stored := s.stored
  let (start, stop) ← stored.measureWindow measure
  let events ← stored.eventsInWindow start stop instrument voice
  return [
    ("measure", measure), ("window", .list [start, stop]),
    ("events", .list (← events.mapM Stored.Event.toData))]

def toYaml (s : Score) : Except Fault (List (String × Data)) := do
  return [("yaml", .text (← Yaml.write ((← s.toData).record?.getD [])))]

end Score

def Compiled.fields (c : Compiled) (withTimeline : Bool) :
    Except Fault (List (String × Data)) := do
  let score := (← c.score.toData).record?.getD []
  let score := if withTimeline then score else put "timeline" (.list []) score
  return [
    ("score", .record score), ("summary", ← c.score.stored.summary),
    ("diagnostics", c.notices.toData)]

namespace Documents

def answerOf : Except Fault (List (String × Data)) → Answer
  | .ok fields => .success fields
  | .error f => .refusal f.message []

def documentAnswer (d : Document) (more : List (String × Data)) : Answer :=
  answerOf do return [("document", .record ((← d.toData) ++ more))]

def sourceIn (d : Data) : Except Fault String :=
  match d with
  | .scalar (.text s) => .ok s
  | .scalar _ => .error (.valueAsSource d.kindName)
  | _ => .error (.collectionAsSource d.kindName)

def nameIn (d : Data) : Except Fault String :=
  match d with
  | .scalar (.text s) => .ok s
  | .scalar _ => .error (.valueAsName d.kindName)
  | _ => .error (.collectionAsName d.kindName)

def fromScore (name : Data) (ask : Score → Except Fault (List (String × Data)))
    (ds : Documents) : Answer × Documents :=
  match nameIn name >>= ds.require with
  | .error f => (.refusal f.message [], ds)
  | .ok (d, ds) =>
    match d.score with
    | some s => (answerOf (ask s), ds)
    | none => (.refusal (d.error.getD "") [], ds)

/-- The library. Kits that were loaded stay so if the tunings cannot be. -/
def listLibrary (ds : Documents) : Answer × Documents :=
  match ds.library.allKits with
  | .error f => (.refusal f.message [], ds)
  | .ok (kits, library) =>
    let ds := { ds with library }
    match library.allTunings with
    | .error f => (.refusal f.message [], ds)
    | .ok (tunings, library) =>
      let kits := (kits.map (·.2)).mergeSort fun a b => a.name ≤ b.name
      let tunings := (tunings.map (·.2)).mergeSort fun a b => a.name ≤ b.name
      (.success [
        ("kits", .list (kits.map Kit.listed)), ("tunings", .list (tunings.map Tuning.listed))],
        { ds with library })

/-- Why a measure cannot be asked for, if it cannot. -/
def badMeasure? (measure : Data) : Option String :=
  match measure.less (.int 1) with
  | .ok false => none
  | .ok true =>
    match measure.shown with
    | .ok s => some ("Measure must be >= 1, got " ++ s)
    | .error f => some f.message
  | .error _ =>
    some ("'<' not supported between instances of '" ++ measure.kindName ++ "' and 'int'")

def call (ds : Documents) : Call → Answer × Documents
  | .compile source withTimeline strict =>
    let (outcome, library) := match sourceIn source with
      | .ok source => compile { strict } ds.library source
      | .error f => (.error (.internal f), ds.library)
    let ds := { ds with library }
    match outcome with
    | .ok c => (answerOf (c.fields withTimeline), ds)
    | .error (.strict ns) =>
      (.refusal (Failure.strict ns).message [("diagnostics", ns.toData)], ds)
    | .error (.internal f) => (.refusal (Failure.internal f).message [], ds)
  | .exportYaml name => ds.fromScore name Score.toYaml
  | .getDocument name =>
    match nameIn name >>= fun name => return (name, ← ds.get? name) with
    | .error f => (.refusal f.message [], ds)
    | .ok (name, none, ds) => (.refusal ("Document not found: " ++ name) [], ds)
    | .ok (_, some d, ds) => (documentAnswer d [("source", .text d.source)], ds)
  | .listDocuments =>
    (answerOf do return [("documents", .list ((← ds.list).map Listing.toData))], ds)
  | .listLibrary => ds.listLibrary
  | .loadDocument path name =>
    let p := Path.ofText path
    match ds.files.isThere p with
    | .error f => (.refusal f.message [], ds)
    | .ok false => (.refusal ("File not found: " ++ path) [], ds)
    | .ok true =>
      match ds.load p name with
      | .error f => (.refusal f.message [], ds)
      | .ok (d, ds) => (documentAnswer d [], ds)
  | .measureEvents name measure instrument voice =>
    match badMeasure? measure with
    | some message => (.refusal message [], ds)
    | none => ds.fromScore name fun s => s.measureFields measure instrument voice
  | .playbackSchedule name => ds.fromScore name Score.schedule
  | .updateDocument name source =>
    let (d, ds) := ds.update name source none
    (documentAnswer d [], ds)

end Documents

end Partitura
