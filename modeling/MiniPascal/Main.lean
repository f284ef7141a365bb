import MiniPascal.CommandLine.Run

/-! # The program

The outer layer of the command line: it reads the files that a call may look at and the standard
input, performs the call, and writes what the call leaves behind.
-/

namespace MiniPascal.CommandLine

/-- What stands at a path of the file system. -/
def loadNode (path : String) : IO (Option FileNode) := do
  try
    let contents ← IO.FS.readBinFile path
    return some (.file contents.toList)
  catch
    | .inappropriateType .. => return some .directory
    | _ => return none

def spelled (text : Text) : String := String.ofList text.chars

/-- The part of the file system that a call may look at. -/
def loadTree (arguments : List Text) : IO FileTree := do
  let mut tree : FileTree := {}
  for path in paths arguments do
    if let some node ← loadNode (spelled path) then
      if let .ok place := tree.place path then
        unless FileTree.isUpward place do tree := tree.put place node
  return tree

/-- Writes the files that a call has made or changed. -/
def storeTree (before after : FileTree) : IO Unit := do
  let old := before.files
  for (path, bytes) in after.files do
    unless (path, bytes) ∈ old do
      let directory := FileTree.upperPart path
      unless directory = [] do IO.FS.createDirAll (spelled directory)
      IO.FS.writeBinFile (spelled path) bytes.toByteArray

end MiniPascal.CommandLine

open MiniPascal MiniPascal.CommandLine in
def main (arguments : List String) : IO UInt32 := do
  let texts := arguments.map Text.ofString
  let tree ← loadTree texts
  let program := (← IO.appPath).toString
  let stdin ← if readsInput texts tree then (← IO.getStdin).readBinToEnd else pure .empty
  let result := run program texts stdin.toList tree
  storeTree tree result.tree
  let stdout ← IO.getStdout
  stdout.write result.output.toByteArray
  stdout.flush
  let stderr ← IO.getStderr
  stderr.write result.errors.toByteArray
  stderr.flush
  return UInt32.ofNat result.exitCode
