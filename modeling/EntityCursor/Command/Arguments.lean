/-!
The arguments of the command line. There are two commands, `run` and `explain`, and every input is
named by an option with a path. Arguments are looked at from left to right, and what an argument
asks for at once, such as help, is done before later arguments are looked at.
-/

namespace EntityCursor

/-- What a command line asks for besides a command. -/
inductive Usage where
  | help
  | version
  | mistake
deriving DecidableEq, Repr

inductive Action where
  | run (data : String)
  | explain
deriving DecidableEq, Repr

structure Command where
  action : Action
  descriptors : String
  query : String
  config : Option String
deriving DecidableEq, Repr

namespace Command

structure Options where
  descriptors : Option String := none
  query : Option String := none
  config : Option String := none
  data : Option String := none

namespace Options

/-- Takes up a path for an option, which must be known, not given before and not empty. -/
def give? (options : Options) (takesData : Bool) (name path : String) : Option Options :=
  if path = "" then none
  else if name = "--descriptors" && options.descriptors.isNone then
    some { options with descriptors := some path }
  else if name = "--query" && options.query.isNone then some { options with query := some path }
  else if name = "--config" && options.config.isNone then some { options with config := some path }
  else if name = "--data" && takesData && options.data.isNone then
    some { options with data := some path }
  else none

end Options

def looksLikeOption (argument : String) : Bool :=
  match argument.toList with
  | '-' :: _ :: _ => true
  | _ => false

/-- What a cluster of short options asks for: its first letter counts. -/
def shortOption (versioned : Bool) (argument : String) : Usage :=
  match argument.toList with
  | '-' :: 'h' :: _ => .help
  | '-' :: 'V' :: _ => if versioned then .version else .mistake
  | _ => .mistake

def splitOption? (argument : String) : Option (String × String) :=
  let characters := argument.toList
  let name := characters.takeWhile (· ≠ '=')
  match characters.dropWhile (· ≠ '=') with
  | [] => none
  | _ :: path => some (String.ofList name, String.ofList path)

def readOptions (takesData : Bool) (options : Options) : List String → Except Usage Options
  | [] => .ok options
  | "--" :: rest => if rest.isEmpty then .ok options else .error .mistake
  | "--help" :: _ => .error .help
  | argument :: rest =>
      if !looksLikeOption argument then .error .mistake
      else if !argument.startsWith "--" then .error (shortOption false argument)
      else
        match splitOption? argument with
        | some (name, path) =>
            match options.give? takesData name path with
            | some options => readOptions takesData options rest
            | none => .error .mistake
        | none =>
            match rest with
            | [] => .error .mistake
            | path :: rest =>
                if looksLikeOption path then .error .mistake
                else
                  match options.give? takesData argument path with
                  | some options => readOptions takesData options rest
                  | none => .error .mistake

def ofOptions? (takesData : Bool) (options : Options) : Option Command := do
  let descriptors ← options.descriptors
  let query ← options.query
  if takesData then return ⟨.run (← options.data), descriptors, query, options.config⟩
  else return ⟨.explain, descriptors, query, options.config⟩

def readCommand (takesData : Bool) (arguments : List String) : Except Usage Command := do
  match ofOptions? takesData (← readOptions takesData {} arguments) with
  | some command => return command
  | none => throw .mistake

def read : List String → Except Usage Command
  | "run" :: rest => readCommand true rest
  | "explain" :: rest => readCommand false rest
  | ["help"] => .error .help
  | ["help", name] =>
      if name = "run" ∨ name = "explain" ∨ name = "help" then .error .help else .error .mistake
  | "--help" :: _ => .error .help
  | "--version" :: _ => .error .version
  | argument :: _ => .error (shortOption true argument)
  | [] => .error .mistake

end Command

end EntityCursor
