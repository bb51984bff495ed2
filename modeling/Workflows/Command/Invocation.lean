import Workflows.Command.Arguments

/-!
# Invocations

* `Command`: what can be asked for
* `Invocation.parse`: the command and the settings file in the words of a line
-/

namespace Workflows

/-- What can be asked for. -/
inductive Command where
  /-- start an instance of a workflow file -/
  | run (file : String) (more : List String) (input version : Option String) (state : String)
  | resume (instanceId node : String) (data : Option String) (state : String)
  | status (instanceId state : String)
  | tree (instanceId : String) (depth : Nat) (state : String)
  | pause (instanceId state : String)
  | cancel (instanceId state : String)
  | validate (file : String)
  /-- list the kinds of nodes -/
  | nodes
  /-- write an example workflow -/
  | init (output : String)
  deriving DecidableEq, Repr

/-- A command and the file with the settings for it. -/
structure Invocation where
  settingsFile : Option String
  command : Command
  deriving DecidableEq, Repr

/-- the files that a command may read or write -/
def Command.paths : Command → List String
  | .run file more _ _ state => file :: state :: more
  | .resume _ _ _ state => [state]
  | .status _ state => [state]
  | .tree _ _ state => [state]
  | .pause _ state => [state]
  | .cancel _ state => [state]
  | .validate file => [file]
  | .nodes => []
  | .init output => [output]

namespace Invocation

/-- the files that an invocation may read or write -/
def paths (i : Invocation) : List String := i.settingsFile.toList ++ i.command.paths

/-- options of every command; the second asks for more messages of the program itself, which are not part of its
output -/
def commonOptions : List OptionRule := [⟨"config", some 'c', .path, false⟩, ⟨"verbose", some 'v', .flag, false⟩]

def instanceOption : OptionRule := ⟨"instance", none, .text, false⟩

def stateOption : OptionRule := ⟨"state", some 's', .path, false⟩

/-- where the state is kept by default -/
def defaultState : String := "orch-state.json"

/-- where the example workflow is written by default -/
def defaultWorkflow : String := "workflow.json"

/-- how deep a tree is shown by default -/
def defaultDepth : Nat := 10

def stateOf (a : Arguments) : String := (a.value? "state").getD defaultState

/-- an option that has to be given -/
def need (a : Arguments) (name : String) : Except Refusal String :=
  match a.value? name with
  | some v => .ok v
  | none => .error .usage

/-- the options of each command, and how many plain words it takes -/
def ownGrammar? : String → Option (List OptionRule × Nat)
  | "run" => some ([⟨"file", some 'f', .path, false⟩, ⟨"with", some 'w', .path, true⟩,
      ⟨"input", some 'i', .text, false⟩, ⟨"version", none, .text, false⟩, stateOption], 0)
  | "resume" => some ([instanceOption, ⟨"node", none, .text, false⟩, ⟨"data", some 'd', .text, false⟩,
      stateOption], 0)
  | "status" => some ([instanceOption, stateOption], 0)
  | "tree" => some ([instanceOption, ⟨"depth", none, .count, false⟩, stateOption], 0)
  | "pause" => some ([instanceOption, stateOption], 0)
  | "cancel" => some ([instanceOption, stateOption], 0)
  | "validate" => some ([], 1)
  | "nodes" => some ([], 0)
  | "init" => some ([⟨"output", some 'o', .path, false⟩], 0)
  | _ => none

/-- the command with a name, from its arguments -/
def commandOf (name : String) (a : Arguments) : Except Refusal Command := do
  match name with
  | "run" =>
    return .run (← need a "file") (a.values "with") (a.value? "input") (a.value? "version") (stateOf a)
  | "resume" => return .resume (← need a "instance") (← need a "node") (a.value? "data") (stateOf a)
  | "status" => return .status (← need a "instance") (stateOf a)
  | "tree" =>
    return .tree (← need a "instance") (((a.value? "depth").bind Arguments.readCount?).getD defaultDepth) (stateOf a)
  | "pause" => return .pause (← need a "instance") (stateOf a)
  | "cancel" => return .cancel (← need a "instance") (stateOf a)
  | "validate" => match a.words with
    | [file] => return .validate file
    | _ => throw .usage
  | "nodes" => return .nodes
  | "init" => return .init ((a.value? "output").getD defaultWorkflow)
  | _ => throw .usage

/-- a request for help on a command -/
def helpOn : List String → Refusal
  | [] => .help
  | [name] => if name = "help" || (ownGrammar? name).isSome then .help else .usage
  | _ => .usage

/-- The invocation in the words of a line.  Common options may stand before and behind the command; behind it they
win. -/
def parse (words : List String) : Except Refusal Invocation := do
  let (before, rest) ← Arguments.read ⟨commonOptions, 0, true⟩ words
  match rest with
  | [] => throw .usage
  | "help" :: names => throw (helpOn names)
  | name :: rest =>
    match ownGrammar? name with
    | none => throw .usage
    | some (options, count) => do
      let (own, _) ← Arguments.read ⟨options ++ commonOptions, count, false⟩ rest
      let command ← commandOf name own
      return ⟨own.value? "config" <|> before.value? "config", command⟩

end Invocation
end Workflows
