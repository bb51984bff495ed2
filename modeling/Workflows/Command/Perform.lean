import Workflows.Command.Disk
import Workflows.Command.Example
import Workflows.Command.Invocation
import Workflows.Command.Report
import Workflows.Engine.Operations
import Workflows.Store.Codec

/-!
# Commands

A command reads and writes files and prints lines.  Instances live in a state file between commands; a command that
runs nodes writes it also where the run fails.

* `Failure`: why a command fails, with the causes behind it
* `Script`: a command as a computation on files and printed lines
* `Command.perform`: each command
* `commandLine`: the answer to the words of a line
-/

namespace Workflows

/-- Why a command fails. -/
structure Failure where
  message : String
  /-- the causes behind it, the nearest first -/
  causes : List String := []
  deriving DecidableEq, Repr

namespace Failure

/-- a text behind a mark, its further lines below its beginning -/
def hanging (mark rest text : String) : List String :=
  match Text.parts (· = '\n') text with
  | [] => [mark]
  | l :: ls => (mark ++ l) :: ls.map (rest ++ ·)

/-- numbered causes -/
def numbered : Nat → List String → List String
  | _, [] => []
  | n, c :: cs => hanging ("    " ++ toString n ++ ": ") "       " c ++ numbered (n + 1) cs

/-- the lines on a failure -/
def lines (f : Failure) : List String :=
  hanging "Error: " "" f.message ++
    match f.causes with
    | [] => []
    | [c] => ["", "Caused by:"] ++ hanging "    " "    " c
    | cs => ["", "Caused by:"] ++ numbered 0 cs

/-- the cause where a text is no JSON value, or not one of the expected form -/
def unreadableValue : String := "the text is not a value of the expected form"

/-- the cause where a text holds no settings -/
def unreadableSettings : String := "the text does not hold settings"

def ofEngine (e : EngineError) : Failure := ⟨e.message, e.causes⟩

end Failure

/-- The files, and the lines printed so far. -/
structure Terminal where
  disk : Disk
  printed : Array String := #[]

/-- A command as a computation. -/
abbrev Script := ExceptT Failure (StateM Terminal)

namespace Script

def print (line : String) : Script Unit := modify fun t => { t with printed := t.printed.push line }

def printAll : List String → Script Unit
  | [] => return ()
  | l :: ls => do
    print l
    printAll ls

/-- the value in a text -/
def parseValue (text : String) : Script Json :=
  match Json.read? text with
  | some v => return v
  | none => throw { message := Failure.unreadableValue }

/-- the text of a file -/
def readFile (what path : String) : Script String := do
  match (← get).disk.read path with
  | .ok text => return text
  | .error e => throw ⟨"cannot read " ++ what ++ " " ++ path, [e.message]⟩

/-- a text as a value of a type -/
def decodeText (what path : String) (decode : Decoder α) (text : String) : Script α :=
  match (Json.readRaw? text).bind decode with
  | some a => return a
  | none => throw ⟨"invalid " ++ what ++ " " ++ path, [Failure.unreadableValue]⟩

def loadWorkflow (path : String) : Script Definition := do
  decodeText "workflow" path Definition.decode (← readFile "workflow" path)

/-- the store in a state file; an empty one where there is no file -/
def openState (path : String) : Script Store := do
  if (← get).disk.contains path then
    let text ← readFile "state file" path
    return .ofSnapshot (← decodeText "state file" path Snapshot.decode text)
  else return {}

def saveState (path : String) (s : Store) : Script Unit := do
  let t ← get
  match t.disk.write path s.toSnapshot.encode.pretty with
  | .ok disk => set { t with disk := disk }
  | .error e => throw ⟨"cannot write state file " ++ path, [e.message]⟩

/-- the settings in a file -/
def loadSettings (path : String) : Script Settings := do
  match (← get).disk.read path with
  | .error e => throw (.ofEngine (.settings ("cannot read " ++ path ++ ": " ++ e.message)))
  | .ok text => match Settings.ofToml? text with
    | some s => return s
    | none => throw (.ofEngine (.settings Failure.unreadableSettings))

/-- an operation of the engine on a store, without its events and without saving -/
def onStore (s : Store) (operation : Run EngineError α) : Script (α × Store) := do
  let (result, world) := operation.run { store := s }
  match result with
  | .ok a => return (a, world.store)
  | .error e => throw (.ofEngine e)

/-- an operation of the engine on a store, its events printed and the store saved, also where it fails -/
def observe (path : String) (s : Store) (operation : Run EngineError α) : Script α := do
  let (result, world) := operation.run { store := s }
  printAll (world.events.toList.map Event.line)
  saveState path world.store
  match result with
  | .ok a => return a
  | .error e => throw (.ofEngine e)

/-- the summary of an instance in a state file -/
def showInstance (path id : String) : Script Unit := do
  let s ← openState path
  let (i, _) ← onStore s (Engine.getInstance id)
  printAll i.summaryLines

/-- workflows that can be run as subprocesses, added to a store -/
def addWorkflows : List String → Store → Script Store
  | [], s => return s
  | path :: paths, s => do
    let d ← loadWorkflow path
    print ("   + subprocess workflow " ++ d.id)
    addWorkflows paths (s.saveWorkflow d)

/-- the variables in an input -/
def inputsOf : Option String → Script Vars
  | none => return []
  | some text => do
    match ← parseValue text with
    | .obj members => return members
    | _ => throw { message := "Input must be a JSON object" }

/-- the data of a resumption -/
def dataOf : Option String → Script (Option Json)
  | none => return none
  | some text => return some (← parseValue text)

/-! ### commands -/

def runWorkflow (env : Env) (file : String) (more : List String) (input version : Option String) (state : String) :
    Script Unit := do
  print ("🚀 Loading workflow from: " ++ file)
  let d ← loadWorkflow file
  printAll ["📋 Workflow: " ++ d.name ++ " (" ++ d.id ++ ")", "   Nodes: " ++ toString d.nodes.length,
    "   Edges: " ++ toString d.edges.length, ""]
  let inputs ← inputsOf input
  let s ← openState state
  let s ← addWorkflows more (s.saveWorkflow d)
  let request := { StartRequest.of d.id with triggeredBy := "cli", inputs := inputs, workflowVersion := version }
  let id ← observe state s (Engine.start env request)
  print ""
  showInstance state id

def resumeInstance (env : Env) (id node : String) (data : Option String) (state : String) : Script Unit := do
  let data ← dataOf data
  let s ← openState state
  observe state s (Engine.resume env id node data)
  showInstance state id

def showTree (env : Env) (id : String) (depth : Nat) (state : String) : Script Unit := do
  let s ← openState state
  let (t, _) ← onStore s (Engine.executionTree env id depth)
  printAll (t.lines 0)

def pauseInstance (env : Env) (id state : String) : Script Unit := do
  let s ← openState state
  let (_, s) ← onStore s (Engine.pause env id)
  saveState state s
  print ("⏸️  Instance " ++ id ++ " paused")

def cancelInstance (env : Env) (id state : String) : Script Unit := do
  let s ← openState state
  observe state s (Engine.cancel env id)
  print ("🛑 Instance " ++ id ++ " cancelled")

def validateWorkflow (file : String) : Script Unit := do
  print ("🔍 Validating workflow: " ++ file)
  let d ← loadWorkflow file
  let check := checkDefinition d
  printAll (check.warnings.map ("   ⚠️  " ++ ·))
  if check.problems.isEmpty then
    printAll ["✅ Workflow is valid:", "   Name: " ++ d.name, "   Status: " ++ d.status.name,
      "   Nodes: " ++ toString d.nodes.length, "   Edges: " ++ toString d.edges.length]
  else
    printAll (check.problems.map ("   ❌ " ++ ·))
    throw { message := "Workflow " ++ d.id ++ " is invalid" }

def writeExample (output : String) : Script Unit := do
  let t ← get
  match t.disk.write output exampleWorkflow.encode.pretty with
  | .ok disk => set { t with disk := disk }
  | .error e => throw { message := e.message }
  printAll ["✨ Created example workflow: " ++ output, "", "Run it with:",
    "  orch run --file " ++ output ++ " --input '\x7b\"amount\": 900\x7d'"]

end Script

/-- a command -/
def Command.perform (env : Env) : Command → Script Unit
  | .run file more input version state => Script.runWorkflow env file more input version state
  | .resume id node data state => Script.resumeInstance env id node data state
  | .status id state => Script.showInstance state id
  | .tree id depth state => Script.showTree env id depth state
  | .pause id state => Script.pauseInstance env id state
  | .cancel id state => Script.cancelInstance env id state
  | .validate file => Script.validateWorkflow file
  | .nodes => Script.printAll nodeKindLines
  | .init output => Script.writeExample output

/-- an invocation, under the settings in its file -/
def Invocation.perform (env : Env) (i : Invocation) : Script Unit := do
  let settings ← match i.settingsFile with
    | some path => Script.loadSettings path
    | none => pure {}
  i.command.perform { env with settings := settings }

/-- The answer to a command line. -/
structure CommandAnswer where
  code : Nat
  output : List String
  errors : List String
  disk : Disk

/-- the answer to the words of a line; help and usage texts are left out -/
def commandLine (env : Env) (disk : Disk) (words : List String) : CommandAnswer :=
  match Invocation.parse words with
  | .error .help => ⟨0, [], [], disk⟩
  | .error .usage => ⟨2, [], [], disk⟩
  | .ok invocation =>
    let (result, t) := (invocation.perform env).run { disk := disk }
    match result with
    | .ok () => ⟨0, t.printed.toList, [], t.disk⟩
    | .error f => ⟨1, t.printed.toList, f.lines, t.disk⟩

end Workflows
