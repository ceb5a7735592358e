import EightBit.CommandLine.Outcome

/-!
# The Program

The command line on the files and streams of the system. What a command line asks for is decided
by `Invocation.ofWords`, and what the command leads to by `Command.perform`; here the files are
read and written, and the results are shown.
-/

namespace EightBit.CommandLine

/-- A failure of the system, as an error of the file it came from. Its code has either sign. -/
def fileError (name : List Char) : IO.Error → FileError
  | .noFileOrDirectory _ _ _ => ⟨.notFound, name⟩
  | .inappropriateType _ code _ =>
    ⟨if min code (0 - code) = 20 then .notDirectory else .isDirectory, name⟩
  | failure => ⟨.other (toString failure), name⟩

/-- The result of work on a file of the system. -/
def tryFile (name : List Char) (work : String → IO α) : IO (Except FileError α) := do
  if name.contains '\x00' then return .error ⟨.nullInName, name⟩
  match ← (work (String.ofList name)).toBaseIO with
  | .ok a => return .ok a
  | .error failure => return .error (fileError name failure)

/-- The files of the system. -/
def systemFiles : FileAccess IO where
  read name := tryFile name fun path => do
    return (← IO.FS.readBinFile path).toList
  write name bytes := tryFile name fun path =>
    IO.FS.writeBinFile path (ByteArray.mk bytes.toArray)

/-- Shows a journal on the console, and writes all of it to its file if there is one. -/
def keepJournal (settings : JournalSettings) (records : List Journal.Record) : IO Unit := do
  let setup := settings.setup
  let all := setup.records ++ records
  for record in setup.shown all do
    IO.eprintln (String.ofList record.line)
  match settings.directory, setup.file with
  | some directory, some file =>
    IO.FS.createDirAll (String.ofList directory)
    IO.FS.writeFile file (String.ofList (printed (all.map Journal.Record.line)))
  | _, _ => return

/-- Prints an outcome, and gives its status. -/
def present (outcome : Outcome) : IO UInt32 := do
  IO.print (String.ofList outcome.out)
  IO.eprint (String.ofList outcome.err)
  return outcome.status.toUInt32

end EightBit.CommandLine

open EightBit.CommandLine

/-- The program. -/
def main (args : List String) : IO UInt32 := do
  match Invocation.ofWords (args.map String.toList) with
  | .error dismissal => present dismissal.outcome
  | .ok invocation =>
    let outcome ← invocation.command.perform systemFiles
    keepJournal invocation.journal outcome.journal
    present outcome
