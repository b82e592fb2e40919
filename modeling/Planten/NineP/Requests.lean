import Planten.NineP.Codec

/-
  The request bodies the client library writes.

  Key definitions include:
    * `encodeVersionBody`, `encodeAuthBody`,
      `encodeAttachBody`
    * `encodeWalkBody`, `encodeOpenBody`, `encodeCreateBody`
    * `encodeReadBody`, `encodeWriteBody`
    * `encodeStatBody`, `encodeWstatBody`
    * `encodeClunkBody`, `encodeRemoveBody`,
      `encodeCloneBody`, `encodeFlushBody`
-/

------------------------------------------------------------
-- Request Bodies
------------------------------------------------------------

namespace Planten

def encodeVersionBody
    (msize : UInt32)
    (version : String) : Bytes :=
  u32le msize ++ encodeString version

def encodeAuthBody
    (fid : UInt32)
    (uname aname : String) : Bytes :=
  u32le fid ++ (encodeString uname ++ encodeString aname)

/- A missing authentication fid is written as 0. -/
def encodeAttachBody
    (fid : UInt32)
    (afid : Option UInt32)
    (uname aname : String) : Bytes :=
  u32le fid ++ (u32le (afid.getD 0) ++
    (encodeString uname ++ encodeString aname))

/- The number of names is cut to 16 bits. -/
def encodeWalkBody
    (fid newfid : UInt32)
    (names : List String) : Bytes :=
  u32le fid ++ (u32le newfid ++
    (u16le (UInt16.ofNat names.length) ++
      names.flatMap encodeString))

def encodeOpenBody
    (fid : UInt32)
    (mode : UInt8) : Bytes :=
  u32le fid ++ [mode]

def encodeReadBody
    (fid : UInt32)
    (offset : UInt64)
    (count : UInt32) : Bytes :=
  u32le fid ++ (u64le offset ++ u32le count)

/- The length of the data is cut to 32 bits. -/
def encodeWriteBody
    (fid : UInt32)
    (offset : UInt64)
    (data : Bytes) : Bytes :=
  u32le fid ++ (u64le offset ++
    (u32le (UInt32.ofNat data.length) ++ data))

def encodeClunkBody (fid : UInt32) : Bytes :=
  u32le fid

def encodeCreateBody
    (fid : UInt32)
    (name : String)
    (perm : UInt32)
    (mode : UInt8) : Bytes :=
  u32le fid ++ (encodeString name ++
    (u32le perm ++ [mode]))

def encodeRemoveBody (fid : UInt32) : Bytes :=
  u32le fid

def encodeStatBody (fid : UInt32) : Bytes :=
  u32le fid

def encodeWstatBody
    (fid : UInt32)
    (stat : Stat) : Bytes :=
  u32le fid ++ encodeStatPayload stat

def encodeCloneBody (fid newfid : UInt32) : Bytes :=
  u32le fid ++ u32le newfid

def encodeFlushBody (oldtag : UInt16) : Bytes :=
  u16le oldtag

end Planten
