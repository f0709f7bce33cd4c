import ClipActions.Command.Invocation

/-!
The program on this machine. What a run may look at is read beforehand; what it has done is carried
out afterwards. There is no transport for sockets, so a running agent does not answer here.
-/
namespace ClipActions.Machine

def nameOf (p : Path) : String := (Text.toString? p.text).getD ""

def nodeAt (p : Path) : IO (Option Node) := do
  let file := (← IO.currentDir) / nameOf p
  if ← file.isDir then return some .directory
  if ← file.pathExists then return some (.file (← IO.FS.readBinFile file).toList)
  return none

def entriesOf (p : Path) : IO (List Text) := do
  let dir := (← IO.currentDir) / nameOf p
  if ← dir.isDir then
    return (← dir.readDir).toList.map fun entry => Text.ofString entry.fileName
  return []

/-- The disk with what stands at a path and on the way to it. -/
def look (disk : Disk) (p : Path) : IO Disk := do
  let mut disk := disk
  for n in List.range (p.parts.length + 1) do
    let q := { p with parts := p.parts.take n }.collapse
    if let some node ← nodeAt q then disk := disk.put { q with lead := min q.lead 1 } node
  return disk

/-- The paths that a run with these settings may look at. -/
def paths (ctx : Context) (log : Option Text) : IO (List Path) := do
  let plugins := (← entriesOf ctx.pluginDir).map ctx.pluginDir.child
  let logs := [AgentLog.output, .errors].map (·.path ctx)
  return [ctx.historyFile, ctx.socket, ctx.pluginDir] ++ plugins ++ logs ++ ctx.logFile.toList ++
    (log.map Path.ofText).toList

/-- The time of day: when a file was made that is made just now. -/
def clock : IO Instant :=
  IO.FS.withTempFile fun _ file => do
    let ⟨seconds, nanos⟩ := (← file.metadata).modified
    return ⟨seconds * 1000000 + nanos.toNat / 1000⟩

def environment : IO Environment := do
  let names := [Context.daemonVariable, Context.triggerVariable, Context.inputVariable,
    Context.historyVariable, Context.pluginsVariable, Context.logDirVariable,
    Context.socketVariable, Context.logVariable]
  let found ← names.mapM fun name => do
    return (name, ← IO.getEnv ((Text.toString? name).getD ""))
  return found.filterMap fun (name, v) => v.map fun s => (name, Text.ofString s)

def home : IO Path := return ((← IO.getEnv "HOME").map (Path.ofText ∘ Text.ofString)).getD Path.usualHome

def logNamed (tokens : List Text) : Option Text :=
  match Command.Line.parse (Command.route Command.Form.known tokens) with
  | .ok line => line.log.join
  | .error _ => none

/-- This machine as a run sees it. -/
def host (env : Environment) (tokens : List Text) : IO Host := do
  let home ← home
  let now ← clock
  let draws ← (List.range RunId.suffixLength).mapM fun _ => IO.rand 0 35
  match Context.ofEnvironment env home with
  | .error _ => return { now, home, draws }
  | .ok ctx => do
    let mut disk : Disk := {}
    for p in ← paths ctx (logNamed tokens) do
      disk ← look disk p
    return { now, home, draws, disk }

/-- What is new on a disk is written to this machine. -/
def write (before after : Disk) : IO Unit := do
  let here ← IO.currentDir
  for (p, n) in after.nodes do
    match n with
    | .directory => if before.node? p ≠ some .directory then IO.FS.createDirAll (here / nameOf p)
    | .file content =>
      let old := (before.contentOrEmpty p).length
      if (before.node? p).isNone || old < content.length then
        let handle ← IO.FS.Handle.mk (here / nameOf p) .append
        handle.write (ByteArray.mk (content.drop old).toArray)

def say (e : Effect) : IO Unit := do
  match e with
  | .printed t => IO.print ((Text.toString? t).getD "")
  | .complained t => IO.eprint ((Text.toString? t).getD "")
  | _ => return ()

/-- The exit code of a run; a failure that escapes it is reported. -/
def exitCode : Except Halt Int → IO UInt32
  | .ok code => return code.toNat.toUInt32
  | .error (.interrupted (.exit (.int code) _)) => return code.toNat.toUInt32
  | .error h => do
    IO.eprintln ((Text.toString? (Log.Block.errorText h)).getD "")
    return 1

end ClipActions.Machine

open ClipActions in
def main (args : List String) : IO UInt32 := do
  let env ← Machine.environment
  let tokens := args.map Text.ofString
  let host ← Machine.host env tokens
  let (result, after) := (@Invocation.main Runtime.strict env tokens).result host
  Machine.write host.disk after.disk
  after.trace.forM Machine.say
  Machine.exitCode result
