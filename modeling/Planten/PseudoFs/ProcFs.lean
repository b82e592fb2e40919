import Planten.Library.KeyMap
import Planten.PseudoFs.FsServer
import Mathlib.Data.List.Sort
import Mathlib.Data.String.Basic

/-
  The process file system.

  The library that lists the processes is a parameter: how a
  number becomes a pid, how a pid is printed, and the table
  of live processes that each refresh finds.

  Key definitions include:
    * `PidText`
    * `Process`
    * `ProcFs.walk`, `ProcFs.open_`, `ProcFs.read`,
      `ProcFs.stat`
    * `ProcFs.fs`
-/

------------------------------------------------------------
-- Processes
------------------------------------------------------------

namespace Planten

/- How pids are made from numbers and printed. -/
structure PidText (Pid : Type) where
  fromUsize : Nat → Pid
  display : Pid → String

/- The states of a process that the file system tells apart. -/
inductive ProcessStatus where
| run
| sleep
| idle
| stop
| zombie
| other (debug : String)
deriving DecidableEq, Repr

/-
  What the file system asks of a process.  A floating-point
  number and the paths come as the texts they are printed as;
  `mounts` is the content of the mounts file of the process,
  when it can be read.
-/
structure Process (Pid : Type) where
  pid : Pid
  name : String
  cmd : List String
  status : ProcessStatus
  parent : Option UInt32
  cpuUsage : String
  memory : UInt64
  virtualMemory : UInt64
  cwd : Option String
  exe : Option String
  userId : Option String
  mounts : Option String

/- The live processes of one refresh. -/
abbrev ProcTable (Pid : Type) :=
  List (Pid × Process Pid)

/- The `{:?}` text of a status. -/
def ProcessStatus.debug : ProcessStatus → String
| run => "Run"
| sleep => "Sleep"
| idle => "Idle"
| stop => "Stop"
| zombie => "Zombie"
| other debug => debug

def ProcessStatus.stateChar : ProcessStatus → String
| run => "R"
| sleep => "S"
| idle => "I"
| stop => "T"
| zombie => "Z"
| other _ => "U"

end Planten

------------------------------------------------------------
-- Entries
------------------------------------------------------------

namespace Planten

inductive ProcFile where
| cmdline
| status
| stat
| info
| statm
| mounts
deriving DecidableEq, Repr

inductive ProcDir where
| fd
| task
deriving DecidableEq, Repr

inductive EntryKind where
| file (file : ProcFile)
| dir (dir : ProcDir)
deriving DecidableEq, Repr

def PROC_ENTRIES : List (String × EntryKind) :=
  [("cmdline", .file .cmdline), ("status", .file .status),
    ("stat", .file .stat), ("info", .file .info),
    ("statm", .file .statm), ("mounts", .file .mounts)]

def PROC_DIRS : List ProcDir :=
  [.fd, .task]

def FD_ENTRIES : List String :=
  ["0", "1", "2"]

def TASK_ENTRIES : List String :=
  ["self"]

def ProcDir.name : ProcDir → String
| fd => "fd"
| task => "task"

def ProcDir.entries : ProcDir → List String
| fd => FD_ENTRIES
| task => TASK_ENTRIES

namespace ProcFs

def processEntryNames : List String :=
  PROC_ENTRIES.map Prod.fst ++ PROC_DIRS.map ProcDir.name

def findDir (name : String) : Option ProcDir :=
  PROC_DIRS.find? (fun dir => dir.name = name)

def findEntryKind (name : String) : Option EntryKind :=
  match PROC_ENTRIES.find? (fun entry => entry.1 = name) with
  | some entry => some entry.2
  | none => (findDir name).map EntryKind.dir

end ProcFs

end Planten

------------------------------------------------------------
-- Contents
------------------------------------------------------------

namespace Planten

namespace ProcFs

variable {Pid : Type} (pids : PidText Pid)

/- The text of a directory: one line for each entry. -/
def directoryListing (entries : List String) : Bytes :=
  asBytes ("\n".intercalate entries ++ "\n")

def writeCmdline (process : Process Pid) : Bytes :=
  let data := asBytes ("\x00".intercalate process.cmd)
  if data.getLast? = some 0 then data else data ++ [0]

/- The `{:?}` text of the pid of a parent. -/
def parentDebug : Option UInt32 → String
| some pid => "Some(" ++ pid.toNat.repr ++ ")"
| none => "None"

def writeStatus (process : Process Pid) : Bytes :=
  asBytes
    ("Name: " ++ process.name ++
      "\nPid: " ++ pids.display process.pid ++
      "\nStatus: " ++ process.status.debug ++
      "\nPPid: " ++ parentDebug process.parent ++
      "\nCmd: " ++ " ".intercalate process.cmd ++
      "\nCPU: " ++ process.cpuUsage ++
      "\nMemory: " ++ process.memory.toNat.repr ++ "\n")

def writeStat (process : Process Pid) : Bytes :=
  asBytes
    (pids.display process.pid ++ " (" ++ process.name ++
      ") " ++ process.status.stateChar ++ " " ++
      (process.parent.getD 0).toNat.repr ++ " " ++
      process.memory.toNat.repr ++ " " ++
      process.cpuUsage ++ "\n")

def writeInfo (process : Process Pid) : Bytes :=
  asBytes
    ("pid " ++ pids.display process.pid ++
      "\nname " ++ process.name ++
      "\nstate " ++ process.status.debug ++
      "\ncwd " ++ process.cwd.getD "<unknown>" ++
      "\nexe " ++ process.exe.getD "<unknown>" ++
      "\nusermode " ++ process.userId.getD "unknown" ++
      "\n")

def writeStatm (process : Process Pid) : Bytes :=
  asBytes
    (process.virtualMemory.toNat.repr ++ " " ++
      process.memory.toNat.repr ++ " 0 0 0 " ++
      process.memory.toNat.repr ++ " 0\n")

def writeMounts (process : Process Pid) : Bytes :=
  asBytes
    (process.mounts.getD "proc /proc proc rw 0 0\n")

/- The content of a file of a process. -/
def writeFile
    (file : ProcFile)
    (process : Process Pid) : Bytes :=
  match file with
  | .cmdline => writeCmdline process
  | .status => writeStatus pids process
  | .stat => writeStat pids process
  | .info => writeInfo pids process
  | .statm => writeStatm process
  | .mounts => writeMounts process

end ProcFs

end Planten

------------------------------------------------------------
-- The File System
------------------------------------------------------------

namespace Planten

namespace ProcFs

variable {Pid : Type} [DecidableEq Pid]
variable (pids : PidText Pid)

/- The printed pids, sorted. -/
def listPids (procs : ProcTable Pid) : List String :=
  ((KeyMap.keys procs).map pids.display).insertionSort
    (· ≤ ·)

/- A text is parsed as a number, and the number is a pid. -/
def pidExists
    (procs : ProcTable Pid)
    (pid : String) : Bool :=
  match parseUsize pid with
  | some pidVal =>
      (procs.lookup (pids.fromUsize pidVal)).isSome
  | none => false

def withProcess
    {α : Type}
    (procs : ProcTable Pid)
    (pid : Nat)
    (f : Process Pid → α) : Option α :=
  (procs.lookup (pids.fromUsize pid)).map f

def readFileEntry
    (procs : ProcTable Pid)
    (pid : Nat)
    (file : ProcFile) : Option Bytes :=
  withProcess pids procs pid (writeFile pids file)

def readFdEntry
    (pid : Nat)
    (name : String) : Option Bytes :=
  if name ∈ FD_ENTRIES then
    some (asBytes
      ("fd " ++ pid.repr ++ "/" ++ name ++
        " -> placeholder\n"))
  else
    none

def readTaskEntry
    (procs : ProcTable Pid)
    (pid : Nat)
    (name : String) : Option Bytes :=
  if name ∈ TASK_ENTRIES then
    readFileEntry pids procs pid .status
  else
    none

/- The content of an entry of a directory of a process. -/
def readDirEntry
    (procs : ProcTable Pid)
    (pid : Nat)
    (dir : ProcDir)
    (name : String) : Option Bytes :=
  match dir with
  | .fd => readFdEntry pid name
  | .task => readTaskEntry pids procs pid name

def walk
    (host : Host (ProcTable Pid))
    (path : String) : Option (List String) :=
  match components path with
  | [] => some (listPids pids (host.reading 0))
  | [pid] =>
      if pidExists pids (host.reading 0) pid then
        some processEntryNames
      else
        none
  | [pid, name] =>
      if pidExists pids (host.reading 0) pid then
        match findEntryKind name with
        | some (.dir dir) => some dir.entries
        | some (.file _) => some []
        | none => none
      else
        none
  | [pid, dir, item] =>
      if pidExists pids (host.reading 0) pid then
        match findDir dir with
        | some .fd =>
            if item ∈ FD_ENTRIES then some [] else none
        | some .task =>
            if item ∈ TASK_ENTRIES then some [] else none
        | none => none
      else
        none
  | _ => none

/- The entry below a directory of a process is not looked at. -/
def open_
    (host : Host (ProcTable Pid))
    (path : String) : Option Unit :=
  match components path with
  | [] => some ()
  | [pid] =>
      if pidExists pids (host.reading 0) pid then
        some ()
      else
        none
  | [pid, name] =>
      if pidExists pids (host.reading 0) pid then
        (findEntryKind name).map (fun _ => ())
      else
        none
  | [pid, dir, _entry] =>
      if pidExists pids (host.reading 0) pid then
        if PROC_DIRS.any (fun d => d.name = dir) then
          some ()
        else
          none
      else
        none
  | _ => none

/- The pid is parsed again where a process is looked up. -/
def read
    (host : Host (ProcTable Pid))
    (path : String) : Option Bytes :=
  match components path with
  | [] =>
      some (directoryListing
        (listPids pids (host.reading 0)))
  | [pid] =>
      if pidExists pids (host.reading 0) pid then
        some (directoryListing processEntryNames)
      else
        none
  | [pid, name] =>
      if pidExists pids (host.reading 0) pid then
        match findEntryKind name with
        | some (.dir dir) =>
            some (directoryListing dir.entries)
        | some (.file file) =>
            (parseUsize pid).bind (fun pidVal =>
              readFileEntry pids (host.reading 1) pidVal file)
        | none => none
      else
        none
  | [pid, dir, entry] =>
      if pidExists pids (host.reading 0) pid then
        (parseUsize pid).bind (fun pidVal =>
          (findDir dir).bind (fun procDir =>
            readDirEntry pids (host.reading 1) pidVal
              procDir entry))
      else
        none
  | _ => none

def stat
    (host : Host (ProcTable Pid))
    (path : String) : Except Panic (Option Attrs) :=
  match components path with
  | [] => statAttrs "/" pseudoDirMode [] host.clock
  | [pid] =>
      if pidExists pids (host.reading 0) pid then
        statAttrs pid pseudoDirMode [] host.clock
      else
        pure none
  | [pid, name] =>
      if pidExists pids (host.reading 0) pid then
        match findEntryKind name with
        | some (.dir _) =>
            statAttrs name pseudoDirMode [] host.clock
        | some (.file _) =>
            match read pids (host.later 1) path with
            | some data =>
                statAttrs name 0o444 data host.clock
            | none => pure none
        | none => pure none
      else
        pure none
  | [pid, dir, entry] =>
      if pidExists pids (host.reading 0) pid then
        match (parseUsize pid).bind (fun pidVal =>
            (findDir dir).bind (fun procDir =>
              readDirEntry pids (host.reading 1) pidVal
                procDir entry)) with
        | some data =>
            statAttrs entry 0o444 data host.clock
        | none => pure none
      else
        pure none
  | _ => pure none

def fs : FsServer (ProcTable Pid) :=
  ⟨walk pids, open_ pids, read pids, stat pids⟩

end ProcFs

end Planten
