import EntityCursor.Chain.Policy
import EntityCursor.Files
import EntityCursor.Journal.Severity

/-!
Engine configurations: a pushdown policy and the threshold of the journal. Everything may be left
out.
-/

namespace EntityCursor

inductive ConfigError where
  | unreadable (path : String)
  | malformed
  | tooManySorts (count : Nat)
  | unknownLevel (name : String)
deriving DecidableEq, Repr

namespace ConfigError

def code : ConfigError → String
  | .unreadable _ => "ENTIQ_CONFIG_READ"
  | .malformed => "ENTIQ_CONFIG_PARSE"
  | .tooManySorts _ => "ENTIQ_CONFIG_INVALID"
  | .unknownLevel _ => "ENTIQ_CONFIG_INVALID"

def message : ConfigError → String
  | .unreadable path => s!"Failed to read config {path}"
  | .malformed => "Invalid config JSON"
  | .tooManySorts count => s!"Invalid config: maxPushedSorts must be 0 or 1, got {count}"
  | .unknownLevel name => "Invalid config: " ++ Severity.unknownMessage name

end ConfigError

structure Config where
  pushdown : Policy := {}
  logLevel : String := "warn"
deriving DecidableEq

namespace Config

def ofSource? (source : Source) : Option Config := do
  match ← source.record? ["pushdown", "logLevel"] with
  | [pushdown, logLevel] =>
      let default : Config := {}
      let pushdown ←
        match pushdown with
        | none => some default.pushdown
        | some pushdown => Policy.ofSource? pushdown
      let logLevel ←
        match logLevel with
        | none => some default.logLevel
        | some logLevel => logLevel.text?
      return ⟨pushdown, logLevel⟩
  | _ => none

def toJson (config : Config) : Json :=
  .object [("logLevel", .string config.logLevel), ("pushdown", config.pushdown.toJson)]

def severity (config : Config) : Except ConfigError Severity :=
  match Severity.read? config.logLevel with
  | some severity => .ok severity
  | none => .error (.unknownLevel config.logLevel)

def validate (config : Config) : Except ConfigError Unit := do
  if 1 < config.pushdown.maxPushedSorts then
    throw (.tooManySorts config.pushdown.maxPushedSorts.toNat)
  let _ ← config.severity

def load (path : String) (file : Option File) : Except ConfigError Config := do
  match File.text? file with
  | none => throw (.unreadable path)
  | some text =>
      match (Source.read? text).bind ofSource? with
      | none => throw .malformed
      | some config =>
          config.validate
          return config

end Config

end EntityCursor
