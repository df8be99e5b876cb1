import ProtoSchema.Generate

/-!
# The command line

The generator as a program: it reads a descriptor set and a configuration and
prints the schema, or writes it to a file. The standard output takes all that
is printed; a file may not take all that is written.
-/

namespace ProtoSchema.Command

/-- The options that take a value. -/
inductive Key where
  | descriptorSet
  | config
  | extensions
  | query
  | mutation
  | output
  deriving DecidableEq, Repr

namespace Key

def all : List Key :=
  [descriptorSet, config, extensions, query, mutation, output]

def long : Key → String
  | descriptorSet => "descriptor-set"
  | config => "config"
  | extensions => "extensions"
  | query => "query"
  | mutation => "mutation"
  | output => "output"

def short : Key → Char
  | descriptorSet => 'd'
  | config => 'c'
  | extensions => 'e'
  | query => 'q'
  | mutation => 'm'
  | output => 'o'

end Key

/-- One argument, by its meaning. -/
inductive Argument where
  /-- An option with its value. -/
  | value (key : Key) (text : String)
  /-- An option whose value is the next argument. -/
  | pending (key : Key)
  | noValidate
  | version
  | help
  /-- The end of the options. -/
  | stop
  | unknown
  deriving DecidableEq, Repr

/-- The meaning of an argument where an option may stand. -/
def Argument.ofText (text : String) : Argument :=
  match text.toList with
  | ['-', '-'] => .stop
  | '-' :: '-' :: long =>
    match Text.splitFirst? '=' long with
    | some (name, text) =>
      match Key.all.find? (·.long.toList = name) with
      | some key => .value key (String.ofList text)
      | none => .unknown
    | none =>
      match Key.all.find? (·.long.toList = long) with
      | some key => .pending key
      | none =>
        let word := String.ofList long
        if word = "no-validate" then .noValidate
        else if word = "version" then .version
        else if word = "help" then .help
        else .unknown
  | '-' :: short :: attached =>
    match Key.all.find? (·.short = short) with
    | some key =>
      match attached with
      | [] => .pending key
      | '=' :: rest => .value key (String.ofList rest)
      | rest => .value key (String.ofList rest)
    | none =>
      if short = 'V' then .version else if short = 'h' then .help else .unknown
  | _ => .unknown

/-- Whether an argument can be the value of the option before it. -/
def isValue (text : String) : Bool :=
  text = "-" || text.toList.head? ≠ some '-'

/-- What the arguments ask for. -/
structure Settings where
  descriptorSet : Option String := none
  config : Option String := none
  extensions : Option String := none
  queries : List String := []
  mutations : List String := []
  output : Option String := none
  noValidate : Bool := false
  deriving DecidableEq, Repr

/-- Why the arguments do not lead to a run. -/
inductive Halt where
  | usage
  | version
  | help
  deriving DecidableEq, Repr

/-- Sets an option that may be given once, to a path that is not empty. -/
def setOnce (old : Option String) (path : String) : Except Halt (Option String) :=
  if old.isSome || path.isEmpty then .error .usage else .ok (some path)

/-- The settings with the value of an option. Methods may be given more than
once, and by any text; the other options name a path, once. -/
def Settings.set (s : Settings) (key : Key) (text : String) : Except Halt Settings :=
  match key with
  | .descriptorSet => (setOnce s.descriptorSet text).map fun x => { s with descriptorSet := x }
  | .config => (setOnce s.config text).map fun x => { s with config := x }
  | .extensions => (setOnce s.extensions text).map fun x => { s with extensions := x }
  | .output => (setOnce s.output text).map fun x => { s with output := x }
  | .query => .ok { s with queries := s.queries ++ [text] }
  | .mutation => .ok { s with mutations := s.mutations ++ [text] }

/-- Reads arguments one by one. There are no arguments but options. -/
def Settings.read (s : Settings) : List String → Except Halt Settings
  | [] => .ok s
  | argument :: rest =>
    match Argument.ofText argument with
    | .value key text => do (← s.set key text).read rest
    | .pending key =>
      match rest with
      | [] => .error .usage
      | text :: rest =>
        if isValue text then do (← s.set key text).read rest else .error .usage
    | .noValidate => if s.noValidate then .error .usage else { s with noValidate := true }.read rest
    | .version => .error .version
    | .help => .error .help
    | .stop => if rest.isEmpty then .ok s else .error .usage
    | .unknown => .error .usage

/-- The name and version that are printed when asked for. -/
def versionText : String := "proto-graphene-codegen 0.1.0\n"

def helpText : String :=
  "Usage: graphene-codegen [OPTIONS] --descriptor-set <DESCRIPTOR_SET>\n"

/-- Replaces an error by what was being done. -/
def context {α : Type} (words : String) (x : Result α) : Except String α :=
  x.mapError fun _ => words

def Settings.toConfig (s : Settings) (files : FileTree) : Except String Config := do
  let c ← match s.config with
    | some path => context ("failed to read config " ++ path) (Config.ofFile files path)
    | none => pure {}
  return { c with
    extensions := s.extensions <|> c.extensions
    queries := c.queries ++ s.queries
    mutations := c.mutations ++ s.mutations
    validate := c.validate && !s.noValidate }

def Settings.schema (s : Settings) (descriptorSet : String) (files : FileTree) :
    Except String String := do
  let config ← s.toConfig files
  let pool ← context ("failed to load " ++ descriptorSet) (Pool.loadFile files descriptorSet)
  (generate files pool config).mapError Error.message

/-- What a run comes to, once everything is read. -/
inductive Action where
  /-- The arguments cannot be understood. -/
  | refuse
  | print (text : String)
  | write (path text : String)
  /-- The run stops; the words say why. -/
  | fail (words : String)
  deriving DecidableEq, Repr

/-- What the settings ask for. Reading comes before the one effect of a
run. -/
def Settings.action (s : Settings) (files : FileTree) : Action :=
  match s.descriptorSet with
  | none => .refuse
  | some descriptorSet =>
    match s.schema descriptorSet files with
    | .error words => .fail words
    | .ok schema =>
      match s.output with
      | none => .print schema
      | some path => .write path schema

def action (arguments : List String) (files : FileTree) : Action :=
  match Settings.read {} arguments with
  | .error .usage => .refuse
  | .error .version => .print versionText
  | .error .help => .print helpText
  | .ok s => s.action files

/-- The words for a file that cannot be written. -/
def writeFailure (path : String) : String :=
  "failed to write " ++ path

/-- What a run leaves behind. -/
structure Outcome where
  exitCode : Nat
  stdout : String := ""
  /-- What went wrong, if the exit code is one. -/
  failure : Option String := none
  files : FileTree

def Action.run (files : FileTree) : Action → Outcome
  | refuse => { exitCode := 2, files }
  | print text => { exitCode := 0, stdout := text, files }
  | fail words => { exitCode := 1, failure := some words, files }
  | write path text =>
    let written := files.write path (Wire.writeText text)
    { exitCode := if written.fault.isSome then 1 else 0
      stdout := if written.echoed then text else ""
      failure := written.fault.map fun _ => writeFailure path
      files := written.tree }

def run (arguments : List String) (files : FileTree) : Outcome :=
  (action arguments files).run files

/-- The files that a run reads, as far as the given ones tell: the extension
file is only known with the configuration. -/
def sources (arguments : List String) (files : FileTree) : List String :=
  match Settings.read {} arguments with
  | .error _ => []
  | .ok s =>
    s.config.toList ++ s.descriptorSet.toList ++
      match s.toConfig files with
      | .ok c => [c.extensions.getD Config.defaultExtensionFile]
      | .error _ => []

end ProtoSchema.Command
