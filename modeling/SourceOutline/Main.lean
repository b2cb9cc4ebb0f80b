import SourceOutline.CommandLine
import SourceOutline.Exchange
import Std.Async.TCP

/-!
# The program

Connects the command line and the exchange of requests with the world: the real file system, the
standard streams and a TCP port. What is read and written is decided elsewhere.
-/

namespace SourceOutline.Program

open Std.Async Std.Net

/-! ### Files -/

/-- The entries of a directory and of those below it. A directory that cannot be read is a fault,
unless its name is to be skipped. -/
partial def entriesOf (skipped : List String) (path : String) :
    IO (List (String × Listing)) := do
  let directory ←
    try (← IO.FS.realPath path).readDir
    catch _ => throw (IO.userError (FileFault.unreadableDirectory path).message)
  directory.toList.mapM fun entry => do
    let name := entry.fileName
    match (← entry.path.symlinkMetadata).type with
    | .dir =>
      if skipped.contains name then pure (name, .directory [])
      else pure (name, .directory (← entriesOf skipped (Path.join path name)))
    | .symlink => pure (name, .link)
    | _ => pure (name, .file)

/-- What a path leads to. Something that is neither a file nor a directory counts as a link. -/
def listingOf? (skipped : List String) (path : String) : IO (Option Listing) := do
  let found : Option IO.FS.FileType ←
    try pure (some (← (← IO.FS.realPath path).metadata).type)
    catch _ => pure none
  match found with
  | some .dir =>
    if isExcluded skipped path then pure (some (.directory []))
    else some <$> .directory <$> entriesOf skipped path
  | some .file => pure (some .file)
  | some _ => pure (some .link)
  | none => pure none

/-- Access to the real file system. -/
def files : FileAccess IO where
  listing? := listingOf?
  bytes? path := do
    try some <$> IO.FS.readBinFile path
    catch _ => pure none

/-- All bytes of a stream. -/
partial def readAll (stream : IO.FS.Stream) (bytes : ByteArray) : IO ByteArray := do
  let next ← stream.read 65536
  if next.isEmpty then pure bytes else readAll stream (bytes ++ next)

/-! ### Connections -/

/-- Answers the lines that a client sends, until it sends no more or the exchange ends. -/
partial def converse (client : TCP.Socket.Client) (state : Exchange.State) : Async Flow := do
  match state with
  | .ended flow => pure flow
  | .listening _ =>
    match ← client.recv? 65536 with
    | some bytes =>
      let (texts, next) := state.receive bytes
      sendAll texts
      converse client next
    | none =>
      let (texts, flow) := state.close
      sendAll texts
      pure flow
where
  /-- Sends replies in their order. -/
  sendAll (texts : List String) : Async Unit :=
    texts.forM fun text => client.send (Exchange.sentBytes text)

/-- Accepts clients one after the other, and answers each of them on its own. When one of them asks
the program to stop, the promise is kept. -/
partial def accept (server : TCP.Socket.Server) (stopped : IO.Promise Unit) : Async Unit := do
  let client ← server.accept
  background do
    let flow ← try converse client .start catch _ => pure .goOn
    if flow = .stop then stopped.resolve ()
  accept server stopped

/-- Serves requests on a port of this machine until someone asks the program to stop. -/
def serve (port : Nat) : IO UInt32 := do
  let server ← TCP.Socket.Server.mk
  try
    server.bind (.v4 ⟨.ofParts 127 0 0 1, port.toUInt16⟩)
    server.listen 128
  catch _ =>
    IO.eprintln ("Error: Failed to bind to 127.0.0.1:" ++ toString port)
    return 1
  let stopped : IO.Promise Unit ← IO.Promise.new
  discard (accept server stopped).toIO
  discard (IO.wait stopped.result?)
  pure 0

/-! ### Start -/

/-- Does what the arguments say. -/
def start (arguments : List String) : IO UInt32 := do
  let input := do readAll (← IO.getStdin) .empty
  let outcome ← CommandLine.run files input arguments
  match outcome with
  | .serving port => serve port
  | .misused =>
    IO.eprintln CommandLine.usageText
    pure outcome.status.toUInt32
  | _ =>
    IO.print outcome.printout
    match outcome.message? with
    | some message => IO.eprintln ("Error: " ++ message)
    | none => pure ()
    pure outcome.status.toUInt32

end SourceOutline.Program

/-- Runs the program. A fault that no outcome stands for is one of the file system. -/
def main (arguments : List String) : IO UInt32 := do
  try SourceOutline.Program.start arguments
  catch fault =>
    IO.eprintln ("Error: " ++ toString fault)
    pure 1
