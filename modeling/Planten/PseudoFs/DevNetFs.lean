import Planten.PseudoFs.FsServer
import Mathlib.Data.List.Sort
import Mathlib.Data.String.Basic

/-
  The device and the network file systems: a root, and a
  fixed list of files in it.

  Key definitions include:
    * `DevFs.walk`, `DevFs.open_`, `DevFs.read`,
      `DevFs.stat`
    * `DevFs.fs`
    * `NetFs.walk`, `NetFs.open_`, `NetFs.read`,
      `NetFs.stat`
    * `NetFs.fs`
-/

------------------------------------------------------------
-- Flat File Systems
------------------------------------------------------------

namespace Planten

/- The entries of the root, and nothing below a file. -/
def walkFlat
    (entries : List String)
    (path : String) : Option (List String) :=
  match components path with
  | [] => some entries
  | [name] => if name ∈ entries then some [] else none
  | _ => none

def openFlat
    (entries : List String)
    (path : String) : Option Unit :=
  match components path with
  | [] => some ()
  | [name] => if name ∈ entries then some () else none
  | _ => none

/- The text of the root is its entries. -/
def readFlat
    (entries : List String)
    (content : String → Option Bytes)
    (path : String) : Option Bytes :=
  match components path with
  | [] => some (asBytes ("\n".intercalate entries))
  | [name] => if name ∈ entries then content name else none
  | _ => none

end Planten

------------------------------------------------------------
-- Devices
------------------------------------------------------------

namespace Planten

def DEV_ENTRIES : List String :=
  ["console", "null", "zero", "random"]

inductive DevFile where
| console
| null
| zero
| random
deriving DecidableEq, Repr

namespace DevFile

def fromName (name : String) : Option DevFile :=
  if name = "console" then
    some console
  else if name = "null" then
    some null
  else if name = "zero" then
    some zero
  else if name = "random" then
    some random
  else
    none

/- The bytes of a device, with those of the random one. -/
def read
    (random : Nat → UInt8)
    (len : Nat) : DevFile → Bytes
| .console => asBytes "console"
| .null => []
| .zero => List.replicate (max len 1) 0
| .random => (List.range (max len 1)).map random

end DevFile

namespace DevFs

def walk
    (_host : Host (Nat → UInt8))
    (path : String) : Option (List String) :=
  walkFlat DEV_ENTRIES path

def open_
    (_host : Host (Nat → UInt8))
    (path : String) : Option Unit :=
  openFlat DEV_ENTRIES path

def read
    (host : Host (Nat → UInt8))
    (path : String) : Option Bytes :=
  readFlat DEV_ENTRIES
    (fun name =>
      (DevFile.fromName name).map
        (DevFile.read (host.reading 0) 64))
    path

/-
  The inode of a device.  The clock is read once by
  `Inode::new`, and once more for each of the times.
-/
def makeInode
    (name : String)
    (mode : UInt32)
    (clock : Clock) : Except Panic (Option Attrs) := do
  let inode ← Attrs.new name mode "root" "root" (clock 0)
  pure (some
    { inode with
      atime := asSecs (clock 1)
      mtime := asSecs (clock 2) })

def stat
    (host : Host (Nat → UInt8))
    (path : String) : Except Panic (Option Attrs) :=
  match components path with
  | [] => makeInode "dev" pseudoDirMode host.clock
  | [name] =>
      if name ∈ DEV_ENTRIES then
        makeInode name 0o666 host.clock
      else
        pure none
  | _ => pure none

def fs : FsServer (Nat → UInt8) :=
  ⟨walk, open_, read, stat⟩

end DevFs

end Planten

------------------------------------------------------------
-- Network Files
------------------------------------------------------------

namespace Planten

def NET_ENTRIES : List String :=
  ["interfaces", "tcp", "udp"]

/-
  What one call reads of the network: the names of the
  interfaces, and the two protocol files, when they can be
  read.
-/
structure NetHost where
  interfaces : Option (List String)
  tcp : Option Bytes
  udp : Option Bytes
deriving DecidableEq, Repr

namespace NetFs

def readInterfaces (net : NetHost) : Option Bytes :=
  net.interfaces.map (fun entries =>
    asBytes
      ("\n".intercalate (entries.insertionSort (· ≤ ·)) ++
        "\n"))

def readEntry
    (net : NetHost)
    (name : String) : Option Bytes :=
  if name = "interfaces" then
    readInterfaces net
  else if name = "tcp" then
    net.tcp
  else if name = "udp" then
    net.udp
  else
    none

def walk
    (_host : Host NetHost)
    (path : String) : Option (List String) :=
  walkFlat NET_ENTRIES path

def open_
    (_host : Host NetHost)
    (path : String) : Option Unit :=
  openFlat NET_ENTRIES path

def read
    (host : Host NetHost)
    (path : String) : Option Bytes :=
  readFlat NET_ENTRIES (readEntry (host.reading 0)) path

def stat
    (host : Host NetHost)
    (path : String) : Except Panic (Option Attrs) :=
  match components path with
  | [] => statAttrs "net" pseudoDirMode [] host.clock
  | [name] =>
      if name ∈ NET_ENTRIES then
        match readEntry (host.reading 0) name with
        | some data => statAttrs name 0o444 data host.clock
        | none => pure none
      else
        pure none
  | _ => pure none

def fs : FsServer NetHost :=
  ⟨walk, open_, read, stat⟩

end NetFs

end Planten
