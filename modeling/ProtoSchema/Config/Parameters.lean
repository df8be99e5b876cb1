import ProtoSchema.Config.Basic
import ProtoSchema.Text.Blank

/-!
# Parameter strings

A plugin gets its settings as one string of `key=value` entries with commas
between them. The file of the first `config` entry is read before anything
else; the other entries are applied to it in their order, wherever they
stand, so the last entry of a key wins.
-/

namespace ProtoSchema.Config

/-- An entry of a parameter string. -/
structure Parameter where
  key : String
  value : String
  deriving DecidableEq, Repr

def Parameter.ofPiece (piece : String) : Result Parameter :=
  match Text.cutFirst? '=' piece with
  | some (key, value) => .ok { key := Text.trim key, value := Text.trim value }
  | none => .error (.parameter (.noValue piece))

/-- The pieces of a text between separators, trimmed, without the empty
ones. -/
def trimmedPieces (sep : Char) (text : String) : List String :=
  ((Text.pieces sep text).map Text.trim).filter (!·.isEmpty)

def parameters (text : String) : Result (List Parameter) :=
  (trimmedPieces ',' text).mapM Parameter.ofPiece

/-- The boolean that a value spells. -/
def flagOfText? (value : String) : Option Bool :=
  if value = "true" then some true
  else if value = "false" then some false
  else none

def apply (c : Config) (p : Parameter) : Result Config :=
  match p.key with
  | "config" => .ok c
  | "extensions" => .ok { c with extensions := some p.value }
  | "queries" => .ok { c with queries := trimmedPieces ';' p.value }
  | "mutations" => .ok { c with mutations := trimmedPieces ';' p.value }
  | "output" => .ok { c with output := some p.value }
  | "validate" =>
    match flagOfText? p.value with
    | some b => .ok { c with validate := b }
    | none => .error (.parameter (.badFlag p.value))
  | "proto_module" => .ok { c with modules := { c.modules with proto := p.value } }
  | "handlers_module" => .ok { c with modules := { c.modules with handlers := p.value } }
  | "extensions_module" => .ok { c with modules := { c.modules with extensions := p.value } }
  | "scalars_module" => .ok { c with modules := { c.modules with scalars := p.value } }
  | "parse_dict_module" => .ok { c with modules := { c.modules with parseDict := p.value } }
  | key => .error (.parameter (.unknownKey key))

/-- The file of the first `config` entry. -/
def configFile? (ps : List Parameter) : Option String :=
  (ps.find? (·.key = "config")).map (·.value)

/-- The configuration that entries start from: that of the configuration file,
or else `c`. -/
def startFrom (files : FileTree) (c : Config) (ps : List Parameter) : Result Config :=
  match configFile? ps with
  | some path => ofFile files path
  | none => .ok c

def withParameters (files : FileTree) (c : Config) : Option String → Result Config
  | none => .ok c
  | some text => do
    let ps ← parameters text
    let start ← startFrom files c ps
    ps.foldlM apply start

end ProtoSchema.Config
