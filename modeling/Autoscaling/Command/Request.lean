import Autoscaling.Text.Digits

/-!
# Requests of the command line

There are two commands, each with the path of a configuration file: `check` prints what the file
declares, `run` runs the hub until it is interrupted.  Options are written as `--name value` or
`--name=value`, each at most once.  `--json-logs` may stand in front of the command or after it.
-/

namespace Autoscaling

/-- What the command line asks for. -/
inductive Request where
  /-- show what a configuration declares -/
  | check (path : String)
  /-- run the hub of a configuration, with another number of workers if one is given -/
  | run (path : String) (workers : Option UInt64)
  deriving DecidableEq

namespace Request

/-- The options after a command. -/
structure Options where
  config : Option String
  workers : Option UInt64
  jsonLogs : Bool

namespace Options

def none : Options := ⟨.none, .none, false⟩

/-- Give the path of the configuration file, which is not empty. -/
def withConfig (o : Options) (value : String) : Option Options :=
  if o.config.isSome || value.isEmpty then .none else some { o with config := some value }

/-- Give the number of workers, which fits a word of 64 bits. -/
def withWorkers (o : Options) (value : String) : Option Options :=
  match Digits.parse? value.toList with
  | some n =>
      if o.workers.isSome || 18446744073709551616 ≤ n then .none
      else some { o with workers := some n.toUInt64 }
  | .none => .none

def withJsonLogs (o : Options) : Option Options :=
  if o.jsonLogs then .none else some { o with jsonLogs := true }

def withValue (takesWorkers : Bool) (o : Options) (name value : String) : Option Options :=
  if name = "config" then o.withConfig value
  else if name = "workers" && takesWorkers then o.withWorkers value
  else .none

/-- The name and the value of an option that is written with an equals sign. -/
def assigned? (argument : String) : Option (String × String) :=
  match argument.toList with
  | '-' :: '-' :: cs =>
      let name := cs.takeWhile (· != '=')
      match cs.drop name.length with
      | _ :: value => some (String.ofList name, String.ofList value)
      | [] => .none
  | _ => .none

/-- Whether an argument cannot be the value of the option in front of it. -/
def looksLikeOption (argument : String) : Bool :=
  match argument.toList with
  | '-' :: _ :: _ => true
  | _ => false

/-- Read options.  The mark for the end of the options may stand at their end. -/
def read (takesWorkers : Bool) (o : Options) : List String → Option Options
  | [] => some o
  | ["--"] => some o
  | [argument] =>
      if argument = "--json-logs" then o.withJsonLogs
      else do
        let (name, value) ← assigned? argument
        o.withValue takesWorkers name value
  | argument :: value :: rest =>
      if argument = "--json-logs" then do
        let o ← o.withJsonLogs
        read takesWorkers o (value :: rest)
      else
        match assigned? argument with
        | some (name, assigned) => do
            let o ← o.withValue takesWorkers name assigned
            read takesWorkers o (value :: rest)
        | .none =>
            if argument = "--config" || argument = "--workers" then
              if looksLikeOption value then .none
              else do
                let o ← o.withValue takesWorkers (argument.drop 2).toString value
                read takesWorkers o rest
            else .none

end Options

/-- Read the command and its options. -/
def ofCommand : List String → Option Request
  | "check" :: rest => do
      let o ← Options.none.read false rest
      let path ← o.config
      some (.check path)
  | "run" :: rest => do
      let o ← Options.none.read true rest
      let path ← o.config
      some (.run path o.workers)
  | _ => none

/-- Read the arguments of the command line. -/
def ofArguments : List String → Option Request
  | "--json-logs" :: rest => ofCommand rest
  | arguments => ofCommand arguments

end Request

end Autoscaling
