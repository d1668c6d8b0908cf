import OwlFunctional.Document

/-! The command line: a document is checked and summed up, or its entities of a kind are listed. -/

set_option autoImplicit false

namespace OwlFunctional

namespace CommandLine

inductive Task where
  | summary
  | declarations (kind : EntityKind) (explicitOnly : Bool)
  deriving DecidableEq, Repr

structure Command where
  task : Task
  /-- The name of the file, or `-` for the standard input. -/
  file : String
  verbose : Bool
  implicit : Bool
  strict : Bool
  logsTokens : Bool
  /-- The labels to bind, each with its namespace after an equals sign. -/
  bindings : List String
  deriving DecidableEq, Repr

def usageExit : Nat := 2

inductive Subcommand where
  | parse
  | declarations
  deriving DecidableEq, Repr

def Subcommand.ofName? : String → Option Subcommand
  | "parse" => some parse
  | "declarations" => some declarations
  | _ => none

inductive Switch where
  | verbose
  | implicit
  | strict
  | logsTokens
  | explicitOnly
  deriving DecidableEq, Repr

inductive Setting where
  | binding
  | kind
  deriving DecidableEq, Repr

inductive Flag where
  | switch (switch : Switch)
  | setting (setting : Setting)
  deriving DecidableEq, Repr

def Flag.ofName? (subcommand : Subcommand) : String → Option Flag
  | "verbose" => some (switch .verbose)
  | "implicit-declarations" => some (switch .implicit)
  | "strict" => some (switch .strict)
  | "token-log" => some (switch .logsTokens)
  | "prefix" => some (setting .binding)
  | "kind" => if subcommand = .declarations then some (setting .kind) else none
  | "explicit-only" => if subcommand = .declarations then some (switch .explicitOnly) else none
  | _ => none

def Flag.ofLetter? (subcommand : Subcommand) : Char → Option Flag
  | 'v' => some (switch .verbose)
  | 'k' => if subcommand = .declarations then some (setting .kind) else none
  | _ => none

def kindName : EntityKind → String
  | .annotationProperty => "annotation-property"
  | .owlClass => "class"
  | .dataProperty => "data-property"
  | .datatype => "datatype"
  | .namedIndividual => "named-individual"
  | .objectProperty => "object-property"

def kindOfName? (name : String) : Option EntityKind :=
  EntityKind.all.find? fun kind => kindName kind == name

structure Arguments where
  switches : List Switch := []
  kind : Option EntityKind := none
  bindings : List String := []
  file : Option String := none

namespace Arguments

def turnOn (arguments : Arguments) (switch : Switch) : Option Arguments :=
  if arguments.switches.contains switch then none
  else some { arguments with switches := switch :: arguments.switches }

/-- A kind can be given once, labels can be bound many times. -/
def set (arguments : Arguments) (setting : Setting) (value : String) : Option Arguments :=
  match setting with
  | .binding => some { arguments with bindings := arguments.bindings ++ [value] }
  | .kind =>
    match arguments.kind, kindOfName? value with
    | none, some kind => some { arguments with kind := some kind }
    | _, _ => none

def setFile (arguments : Arguments) (name : String) : Option Arguments :=
  if arguments.file.isSome || name.isEmpty then none
  else some { arguments with file := some name }

end Arguments

/-- Whether an argument is an option rather than a value. A single hyphen is a value. -/
def isOption (argument : String) : Bool :=
  match argument.toList with
  | '-' :: _ :: _ => true
  | _ => false

/-- What a cluster of letters comes to. A setting takes what follows its letter in the cluster,
perhaps after an equals sign, or waits for the next argument. -/
def readLetters (subcommand : Subcommand) (arguments : Arguments) :
    List Char → Option (Arguments × Option Setting)
  | [] => some (arguments, none)
  | letter :: rest => do
    match ← Flag.ofLetter? subcommand letter with
    | .switch switch => readLetters subcommand (← arguments.turnOn switch) rest
    | .setting setting =>
      match rest with
      | [] => some (arguments, some setting)
      | '=' :: value => some (← arguments.set setting (.ofList value), none)
      | value => some (← arguments.set setting (.ofList value), none)

/-- What a long option comes to. Only a setting takes a value after an equals sign. -/
def readLong (subcommand : Subcommand) (arguments : Arguments) (text : List Char) :
    Option (Arguments × Option Setting) := do
  let name := text.takeWhile (· != '=')
  match ← Flag.ofName? subcommand (.ofList name), text.dropWhile (· != '=') with
  | .switch switch, [] => some (← arguments.turnOn switch, none)
  | .switch _, _ => none
  | .setting setting, [] => some (arguments, some setting)
  | .setting setting, _ :: value => some (← arguments.set setting (.ofList value), none)

def readOption (subcommand : Subcommand) (arguments : Arguments) (argument : String) :
    Option (Arguments × Option Setting) :=
  match argument.toList with
  | '-' :: '-' :: name => readLong subcommand arguments name
  | '-' :: letters => readLetters subcommand arguments letters
  | _ => none

/-- Reads the arguments of a subcommand in any order. After `--` all of them are files. -/
def readArguments (subcommand : Subcommand) (arguments : Arguments) (waiting : Option Setting) :
    List String → Option Arguments
  | [] => if waiting.isSome then none else some arguments
  | argument :: rest =>
    match waiting with
    | some setting => do
      if isOption argument then none
      else readArguments subcommand (← arguments.set setting argument) none rest
    | none => do
      if argument = "--" then rest.foldlM Arguments.setFile arguments
      else if isOption argument then
        let (arguments, waiting) ← readOption subcommand arguments argument
        readArguments subcommand arguments waiting rest
      else readArguments subcommand (← arguments.setFile argument) none rest

def assemble (verbose : Bool) (subcommand : Subcommand) (arguments : Arguments) :
    Option Command := do
  let has := arguments.switches.contains
  let task ← match subcommand with
    | .parse => some .summary
    | .declarations => arguments.kind.map fun kind => .declarations kind (has .explicitOnly)
  some {
    task := task
    file := ← arguments.file
    verbose := verbose || has .verbose
    implicit := has .implicit
    strict := has .strict
    logsTokens := has .logsTokens
    bindings := arguments.bindings }

def readSubcommand (verbose : Bool) : List String → Option Command
  | [] => none
  | name :: rest => do
    let subcommand ← Subcommand.ofName? name
    assemble verbose subcommand (← readArguments subcommand {} none rest)

/-- Reads a command line, if it makes sense. The switch for more reports can also stand before
the subcommand. -/
def parse? : List String → Option Command
  | [] => none
  | first :: rest =>
    if first = "-v" ∨ first = "--verbose" then readSubcommand true rest
    else readSubcommand false (first :: rest)

inductive Content where
  | missing (reason : String)
  | delivered (input : Input)

def noSuchFile : String := "No such file or directory (os error 2)"

structure Report where
  exit : Nat
  output : String
  errors : String
  deriving DecidableEq, Repr

/-- Why a command failed: what it tried, and the causes, each because of the next. -/
structure Failure where
  attempt : String
  causes : List String
  deriving DecidableEq, Repr

namespace Failure

def indent (margin : String) (text : String) : String :=
  .ofList (text.toList.flatMap fun c => if c = '\n' then c :: margin.toList else [c])

def renderCauses : List String → String
  | [cause] => "    " ++ indent "    " cause ++ "\n"
  | causes =>
    causes.zipIdx.foldr
      (fun entry text => "    " ++ toString entry.2 ++ ": " ++ indent "       " entry.1 ++ "\n" ++
        text) ""

def render (failure : Failure) : String :=
  "Error: " ++ failure.attempt ++ "\n" ++
    if failure.causes.isEmpty then "" else "\nCaused by:\n" ++ renderCauses failure.causes

end Failure

/-- Characters that a terminal would act on are written as escapes in the log. -/
def showControl (c : Char) : String :=
  let hex (digits : List Char) : String := .ofList digits
  if [0x07, 0x08, 0x0C, 0x1B, 0x7F].contains c.toNat then
    "\\x" ++ hex (if c.toNat < 0x10 then '0' :: Nat.toDigits 16 c.toNat else Nat.toDigits 16 c.toNat)
  else if 0x80 ≤ c.toNat ∧ c.toNat ≤ 0x9F then
    "\\u\x7b" ++ hex (Nat.toDigits 16 c.toNat) ++ "\x7d"
  else c.toString

def renderEvent (event : Event) : String :=
  let message := event.message.toList.foldr (fun c text => showControl c ++ text) ""
  { event with message := message : Event }.render ++ "\n"

def levelOfName? : String → Option Level
  | "error" => some .error
  | "warn" => some .warn
  | "info" => some .info
  | "debug" => some .debug
  | "trace" => some .trace
  | _ => none

namespace Command

/-- How much a command reports: everything if it is verbose, else what the environment says. -/
def level (command : Command) (environment : Option String) : Level :=
  if command.verbose then .trace else (environment.bind levelOfName?).getD .warn

def source (command : Command) : String := if command.file = "-" then "stdin" else command.file

def bind (settings : Settings) (binding : String) : Except Failure Settings :=
  let label := String.ofList (binding.toList.takeWhile (· != '='))
  match binding.toList.dropWhile (· != '=') with
  | [] => .error ⟨"invalid prefix binding " ++ binding ++ ", expected NAME=IRI", []⟩
  | _ :: space =>
    match settings.bind label (.ofList space) with
    | .ok settings => .ok settings
    | .error error =>
      let inner := if error = .hostAddress then [IriError.addressMessage] else []
      .error ⟨"invalid IRI for prefix " ++ label, error.message :: inner⟩

def settings (command : Command) : Except Failure Settings :=
  command.bindings.foldlM bind
    { policy := if command.implicit then .implicit else .explicit
      strict := command.strict
      logsTokens := command.logsTokens }

def output (command : Command) (ontology : Ontology) (catalogue : Catalogue) : List String :=
  match command.task with
  | .summary =>
    ["ontology " ++ ontology.iri.render] ++
    (ontology.version.toList.map fun version => "version " ++ version.render) ++
    (ontology.prefixes.bindings.map fun binding =>
      "prefix " ++ binding.label ++ ": <" ++ binding.space ++ ">") ++
    (EntityKind.all.map fun kind =>
      let implicit := catalogue.countOf .implicit kind
      kind.name ++ " " ++ toString (catalogue.count kind) ++
        if 0 < implicit then " (" ++ toString implicit ++ " implicit)" else "") ++
    ["axioms " ++ toString catalogue.axioms.size]
  | .declarations kind explicitOnly =>
    ((catalogue.entries.get kind).filter fun entry =>
      !explicitOnly || entry.origin == .explicit).map fun entry => entry.iri.text

def lastEvent (outcome : Outcome Catalogue) : Event :=
  let catalogue := outcome.session.store
  match outcome.result with
  | .ok ontology => ⟨.info, .command, ontology.summary catalogue.render⟩
  | .error _ =>
    ⟨.warn, .command,
      toString (EntityKind.all.foldl (fun total kind => total + catalogue.count kind) 0) ++ " declarations and " ++
      toString catalogue.axioms.size ++ " axioms had been read before the error"⟩

/-- The events and the lines that a command prints, or why it fails. -/
def execute (command : Command) (content : Content) :
    List Event × Except Failure (List String) :=
  match command.settings with
  | .error failure => ([], .error failure)
  | .ok settings =>
    match content with
    | .missing reason => ([], .error ⟨"failed to open " ++ command.source, [reason]⟩)
    | .delivered input =>
      let outcome := Document.read settings command.source input
      ((Document.readLog settings command.source input).toList ++ [lastEvent outcome],
        match outcome.result with
        | .ok ontology => .ok (command.output ontology outcome.session.store)
        | .error error => .error ⟨"failed to parse " ++ command.source, [error.render]⟩)

def run (command : Command) (environment : Option String) (content : Content) : Report :=
  let (events, result) := command.execute content
  let shown := events.filter fun event => event.level.detail ≤ (command.level environment).detail
  let log := shown.foldr (fun event text => renderEvent event ++ text) ""
  match result with
  | .ok lines => ⟨0, lines.foldr (fun line text => line ++ "\n" ++ text) "", log⟩
  | .error failure => ⟨1, "", log ++ failure.render⟩

end Command

end CommandLine

end OwlFunctional
