import EntityCursor.Channel.TableEngine
import EntityCursor.Command.Arguments
import EntityCursor.Command.Config
import EntityCursor.Cursor.Script
import EntityCursor.Descriptor.Loading

/-!
The commands. `run` evaluates a query script against rows from a file and gives the result with the
counters, and `explain` gives the plan of the script without looking at any rows. The inputs are
read in a fixed order: configuration, descriptors, script, rows.
-/

namespace EntityCursor

inductive CommandError where
  | config (cause : ConfigError)
  | descriptor (cause : DescriptorError)
  | query (cause : QueryError)
  | unreadableInput (path : String)

namespace CommandError

def code : CommandError → String
  | .config cause => cause.code
  | .descriptor cause => cause.code
  | .query cause => cause.code
  | .unreadableInput _ => "ENTIQ_CLI_INPUT"

def message : CommandError → String
  | .config cause => cause.message
  | .descriptor cause => cause.message
  | .query cause => cause.message
  | .unreadableInput path => s!"No valid input in {path}"

end CommandError

namespace Command

abbrev FileAt := String → Option File

def loadConfig (files : FileAt) : Option String → Except ConfigError Config
  | none => .ok {}
  | some path => Config.load path (files path)

def loadRegistry (files : FileAt) (path : String) : Except DescriptorError Registry := do
  match Registry.empty.load path (files path) with
  | (.error failure, _) => throw failure
  | (.ok (), registry) =>
      registry.validate
      return registry

def loadScript (files : FileAt) (path : String) : Except CommandError Script :=
  match (File.text? (files path)).bind Script.read? with
  | some script => .ok script
  | none => .error (.unreadableInput path)

def rowsOfSource? (source : Source) : Option (List Json) := do
  (← source.list?).mapM Source.toJson?

def tablesOfSource? : Source → Option (Fields (List Json))
  | .object members => do
      let tables ← members.mapM fun (entity, rows) => do return (entity, ← rowsOfSource? rows)
      return Fields.ofList tables
  | _ => none

def loadTables (files : FileAt) (path : String) : Except CommandError (Fields (List Json)) :=
  match ((File.text? (files path)).bind Source.read?).bind tablesOfSource? with
  | some tables => .ok tables
  | none => .error (.unreadableInput path)

def engineOfTables (tables : Fields (List Json)) : TableEngine :=
  tables.foldl (fun engine (entity, rows) => engine.insert entity rows) {}

def runScript (config : Config) (registry : Registry) (script : Script)
    (tables : Fields (List Json)) (request : Request) (duration : String) (journal : Journal) :
    Except CommandError Json × Journal :=
  let store : Store TableEngine := ⟨TableEngine.channel, registry⟩
  let world : World TableEngine := { channel := engineOfTables tables, journal := journal }
  match script.evaluate config.pushdown store request world with
  | (.error failure, world) => (.error (.query failure), world.journal)
  | (.ok result, world) =>
      (.ok (.object [("metrics", world.metrics.toJson), ("result", result)]),
        world.journal.log .info "CLI_RUN_COMPLETE"
          [("request_id", request.id), ("duration_ms", duration)])

def explainScript (config : Config) (script : Script) : Except CommandError Json :=
  match script.build config.pushdown with
  | .error failure => .error (.query failure)
  | .ok cursor =>
      match cursor.explain with
      | .error failure => .error (.query failure)
      | .ok plan => .ok (.object [("chain", .integer cursor.chain.length), ("plan", plan.toJson)])

/-- What a command gives, and the journal after it. The threshold of the configuration holds from
the moment it is known. -/
def execute (command : Command) (files : FileAt) (request : Request) (duration : String)
    (journal : Journal) : Except CommandError Json × Journal :=
  let prepared : Except ConfigError (Config × Journal) := do
    let config ← loadConfig files command.config
    return (config, { journal with threshold := ← config.severity })
  match prepared with
  | .error failure => (.error (.config failure), journal)
  | .ok (config, journal) =>
      match loadRegistry files command.descriptors with
      | .error failure => (.error (.descriptor failure), journal)
      | .ok registry =>
          match loadScript files command.query with
          | .error failure => (.error failure, journal)
          | .ok script =>
              match command.action with
              | .explain => (explainScript config script, journal)
              | .run data =>
                  match loadTables files data with
                  | .error failure => (.error failure, journal)
                  | .ok tables => runScript config registry script tables request duration journal

def response : Except CommandError Json → Json
  | .ok data => .object [("data", data), ("status", .string "ok")]
  | .error failure =>
      .object [("code", .string failure.code), ("message", .string failure.message),
        ("status", .string "error")]

structure Output where
  exitCode : UInt8
  standardOutput : List String
  standardError : List String

/-- The output of a command: the journal, where failures go to the error stream, and the answer. -/
def output (outcome : Except CommandError Json) (journal : Journal) : Output :=
  let isFailure (entry : JournalEntry) : Bool := Severity.level .error ≤ entry.severity.level
  let shown := (journal.entries.filter (!isFailure ·)).map JournalEntry.line
  let failed := (journal.entries.filter isFailure).map JournalEntry.line
  match outcome with
  | .ok _ => ⟨0, shown ++ [(response outcome).compact], failed⟩
  | .error failure =>
      ⟨1, shown ++ [(response outcome).compact],
        failed ++ [failure.code ++ ": " ++ failure.message]⟩

end Command

end EntityCursor
