import ProtoSchema.Command
import ProtoSchema.Plugin

/-!
# The programs

The outer layer of both programs: it takes the files that a run needs from
the disk, lets the library decide, and does what was decided. Under the name
`protoc-gen-graphene` the executable is the compiler's plugin, under any
other name the command line.
-/

namespace ProtoSchema.Main

/-- The code of the system for reading a directory. -/
def isDirectoryCode : UInt32 := 21

def take (files : FileTree) (path : String) : IO FileTree := do
  match ← (IO.FS.readBinFile path).toBaseIO with
  | .ok content => return files.add path (.file content.toList)
  | .error (.inappropriateType _ code _) =>
    return if code = isDirectoryCode then files.add path .directory else files
  | .error (.permissionDenied _ code words) =>
    return files.addUnreadable path
      { message := words ++ " (os error " ++ toString code ++ ")" }
  | .error _ => return files

/-- Adds what a run needs. The second round takes the files that only the
first one makes known. -/
def gather (sources : FileTree → List String) : IO FileTree := do
  let files ← (sources {}).foldlM take {}
  (sources files).foldlM take files

/-- Reads to the end of a stream. -/
partial def readAll (stream : IO.FS.Stream) (content : ByteArray) : IO ByteArray := do
  let chunk ← stream.read 65536
  if chunk.isEmpty then return content else readAll stream (content ++ chunk)

def plugin : IO UInt32 := do
  let input := (← readAll (← IO.getStdin) ByteArray.empty).toList
  let files ← gather (Plugin.sources · input)
  let output := (Plugin.respond files input).encode
  (← IO.getStdout).write ⟨output.toArray⟩
  return 0

def stop (words : String) : IO UInt32 := do
  IO.eprintln ("Error: " ++ words)
  return 1

def command (arguments : List String) : IO UInt32 := do
  let files ← gather (Command.sources arguments)
  match Command.action arguments files with
  | .refuse =>
    IO.eprint ("error: invalid arguments\n\n" ++ Command.helpText)
    return 2
  | .print text =>
    IO.print text
    return 0
  | .fail words => stop words
  | .write path text =>
    match ← (IO.FS.writeFile path text).toBaseIO with
    | .ok _ => return 0
    | .error _ => stop (Command.writeFailure path)

end ProtoSchema.Main

def main (arguments : List String) : IO UInt32 := do
  if (toString (← IO.appPath)).endsWith "protoc-gen-graphene" then
    ProtoSchema.Main.plugin
  else
    ProtoSchema.Main.command arguments
