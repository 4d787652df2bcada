import NextOffer.Fields

/-! # Commands

The commands and how arguments choose them. The first argument names the command. An
option stands before its value or is joined to it by an equals sign, a switch takes no
value, and of an option that is given twice the last value counts. After two hyphens
there are no options. A command takes nothing else.
-/

namespace NextOffer

/-- What a simulation is run on, and what becomes of it. -/
structure SimulationOptions where
  rules : Option String := none
  products : Option String := none
  profile : Option String := none
  events : Option String := none
  /-- A named set of events in the place of a file. -/
  exampleName : Option String := none
  outputDir : Option String := none
  saveReports : Bool := false
  config : Option String := none
  json : Bool := false
  deriving DecidableEq, Repr

structure PreviewOptions where
  rules : Option String := none
  config : Option String := none
  status : Option String := none
  deriving DecidableEq, Repr

structure RankingOptions where
  products : Option String := none
  profile : Option String := none
  config : Option String := none
  deriving DecidableEq, Repr

/-- A command with its options. An empty text counts as no option. -/
inductive Command where
  | validateConfig (config : Option String) (full : Bool)
  | simulate (options : SimulationOptions)
  | previewRules (options : PreviewOptions)
  | recommend (options : RankingOptions)
  | vocabulary
  deriving DecidableEq, Repr

namespace Command

structure Given where
  values : Fields String := []
  switches : List String := []
  deriving DecidableEq, Repr

namespace Given

/-- The value of an option that is given and not empty. -/
def value (given : Given) (name : String) : Option String :=
  (given.values.get? name).filter (· ≠ "")

def has (given : Given) (name : String) : Bool := name ∈ given.switches

/-- A name and the text joined to it by the first equals sign. -/
def splitJoined (argument : String) : String × Option String :=
  let name := argument.toList.takeWhile (· != '=')
  match argument.toList.drop name.length with
  | [] => (argument, none)
  | _ :: text => (String.ofList name, some (String.ofList text))

/-- Read arguments after those that were given before. None when one of them is no
    option, has no value or has a value too many. -/
def read? (options switches : List String) (given : Given) : List String → Option Given
  | [] => some given
  | argument :: rest =>
      if argument = "--" then if rest.isEmpty then some given else none
      else
        match splitJoined argument, rest with
        | (name, none), rest =>
            if name ∈ switches then
              read? options switches { given with switches := name :: given.switches } rest
            else if name ∈ options then
              match rest with
              | [] => none
              | value :: rest =>
                  read? options switches
                    { given with values := given.values.set name value } rest
            else none
        | (name, some value), rest =>
            if name ∈ options then
              read? options switches { given with values := given.values.set name value } rest
            else none

end Given

/-- Read the arguments behind the name of a command. -/
def ofNamed? (name : String) (arguments : List String) : Option Command :=
  match name with
  | "validate-config" => do
      let given ← Given.read? ["--config"] ["--full"] {} arguments
      return .validateConfig (given.value "--config") (given.has "--full")
  | "simulate" => do
      let given ← Given.read?
        ["--rules", "--products", "--profile", "--events", "--example", "--output-dir",
          "--config"] ["--save-reports", "--json"] {} arguments
      return .simulate {
        rules := given.value "--rules"
        products := given.value "--products"
        profile := given.value "--profile"
        events := given.value "--events"
        exampleName := given.value "--example"
        outputDir := given.value "--output-dir"
        saveReports := given.has "--save-reports"
        config := given.value "--config"
        json := given.has "--json" }
  | "preview-rules" => do
      let given ← Given.read? ["--rules", "--config", "--status"] [] {} arguments
      return .previewRules {
        rules := given.value "--rules"
        config := given.value "--config"
        status := given.value "--status" }
  | "recommend" => do
      let given ← Given.read? ["--products", "--profile", "--config"] [] {} arguments
      return .recommend {
        products := given.value "--products"
        profile := given.value "--profile"
        config := given.value "--config" }
  | "vocabulary" => do
      let _ ← Given.read? [] [] {} arguments
      return .vocabulary
  | _ => none

/-- The command that arguments choose. None when they are misused. -/
def ofArguments? : List String → Option Command
  | [] => none
  | "--" :: name :: rest => ofNamed? name rest
  | name :: rest => ofNamed? name rest

end Command

end NextOffer
