import Planten.PseudoFs.FsServer

/-
  The service file system.

  Key definitions include:
    * `SrvRoot`
    * `SrvFs.listServices`
    * `SrvFs.walk`, `SrvFs.open_`, `SrvFs.read`,
      `SrvFs.stat`
    * `SrvFs.fs`
-/

------------------------------------------------------------
-- The Service Root
------------------------------------------------------------

namespace Planten

/-
  An entry of the service root: its name, when that is UTF-8,
  and whether it is a directory.
-/
structure RootEntry where
  name : Option String
  isDir : Bool
deriving DecidableEq, Repr

/-
  What one call reads of the service root.  The entries come
  in the order of the directory; the whole directory and each
  entry may fail to be read.  `ctl` is what is found at the
  path `<root>/<name>/ctl`: nothing, a file that cannot be
  read, or its content.
-/
structure SrvRoot where
  entries : Option (List (Option RootEntry))
  ctl : String → Option (Option Bytes)

def SERVICE_FILES : List String :=
  ["ctl"]

namespace SrvFs

/- The name of a service, if the entry is one. -/
def serviceName (entry : RootEntry) : Option String :=
  if entry.isDir then entry.name else none

def listServices (root : SrvRoot) : List String :=
  match root.entries with
  | some entries =>
      entries.filterMap (fun entry =>
        entry.bind serviceName)
  | none => []

/- The content of the file of a service. -/
def readServiceCtls
    (root : SrvRoot)
    (name : String) : Option Bytes :=
  match root.ctl name with
  | some content => content
  | none => some (asBytes ("service " ++ name ++ " ctl\n"))

end SrvFs

end Planten

------------------------------------------------------------
-- The File System
------------------------------------------------------------

namespace Planten

namespace SrvFs

def walk
    (host : Host SrvRoot)
    (path : String) : Option (List String) :=
  match components path with
  | [] => some (listServices (host.reading 0))
  | [service] =>
      if service ∈ listServices (host.reading 0) then
        some SERVICE_FILES
      else
        none
  | _ => none

/- The service of a file is not looked at. -/
def open_
    (host : Host SrvRoot)
    (path : String) : Option Unit :=
  match components path with
  | [] => some ()
  | [service] =>
      if service ∈ listServices (host.reading 0) then
        some ()
      else
        none
  | [_service, file] =>
      if file ∈ SERVICE_FILES then some () else none
  | _ => none

def read
    (host : Host SrvRoot)
    (path : String) : Option Bytes :=
  match components path with
  | [] =>
      some (asBytes
        ("\n".intercalate (listServices (host.reading 0))))
  | [service] =>
      if service ∈ listServices (host.reading 0) then
        some (asBytes ("\n".intercalate SERVICE_FILES))
      else
        none
  | [service, file] =>
      if file ∈ SERVICE_FILES then
        readServiceCtls (host.reading 0) service
      else
        none
  | _ => none

def stat
    (host : Host SrvRoot)
    (path : String) : Except Panic (Option Attrs) :=
  match components path with
  | [] => statAttrs "srv" pseudoDirMode [] host.clock
  | [service] =>
      if service ∈ listServices (host.reading 0) then
        statAttrs service pseudoDirMode [] host.clock
      else
        pure none
  | [_service, file] =>
      if file ∈ SERVICE_FILES then
        match read host path with
        | some data => statAttrs file 0o444 data host.clock
        | none => pure none
      else
        pure none
  | _ => pure none

def fs : FsServer SrvRoot :=
  ⟨walk, open_, read, stat⟩

end SrvFs

end Planten
