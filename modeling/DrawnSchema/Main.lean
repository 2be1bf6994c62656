import DrawnSchema.CommandLine.Run

namespace DrawnSchema.CommandLine

/-- What the disk holds at a path. A folder can be opened but not read. -/
def entryOnDisk? (p : Path) : IO (Option FileEntry) := do
  let path := Text.released p.text
  try
    let _ ← IO.FS.Handle.mk path .read
  catch _ => return none
  try
    return some (.file (← IO.FS.readBinFile path).data.toList)
  catch _ => return some .folder

def waysTo (p : Path) : List Path :=
  (List.range p.steps.length).map fun n => { p with steps := p.steps.take (n + 1) }

def addFromDisk (t : FileTree) (p : Path) : IO FileTree := do
  match t.follow p, ← entryOnDisk? p with
  | .ok place, some e => return t.put place e
  | _, _ => return t

def filesFor (i : Invocation) : IO FileTree :=
  ((i.input :: i.outputs).flatMap fun s => waysTo (Path.ofText s)).foldlM addFromDisk {}

def saveOutputs (i : Invocation) (before after : FileTree) : IO Unit := do
  for path in i.outputs do
    match after.entry? (Path.ofText path) with
    | some (.file octets) =>
      if before.entry? (Path.ofText path) ≠ some (.file octets) then
        IO.FS.writeBinFile (Text.released (Path.ofText path).text) ⟨octets.toArray⟩
    | _ => pure ()

def usage : String :=
  "Usage: schemaforge [-v] generate|validate|synthesize [options] SNAPSHOT_FILE"

def mainWith (args : List String) : IO UInt32 := do
  let env : Environment := {
    provider := (← IO.getEnv "SCHEMAFORGE_PROVIDER").map Text.held
    generatorOutput := (← IO.getEnv "SCHEMAFORGE_GENERATOR_OUTPUT").map Text.held }
  match Invocation.read env (args.map Text.held) with
  | none =>
    IO.eprintln usage
    return 2
  | some i =>
    let files ← filesFor i
    if i.fits files then
      let c := i.run files
      saveOutputs i files c.files
      IO.print (Text.released c.stdout)
      IO.eprint (Text.released c.stderr)
      if c.failure.isSome then IO.eprintln "The snapshot cannot be processed."
      return c.exit.toUInt32
    else
      IO.eprintln usage
      return 2

end DrawnSchema.CommandLine

def main (args : List String) : IO UInt32 := DrawnSchema.CommandLine.mainWith args
