import Planten.Runtime

/-
  9P2000 message types.
-/

------------------------------------------------------------
-- Message Types
------------------------------------------------------------

namespace Planten

def TVERSION : UInt8 := 100
def RVERSION : UInt8 := 101
def TAUTH : UInt8 := 102
def RAUTH : UInt8 := 103
def TATTACH : UInt8 := 104
def RATTACH : UInt8 := 105
def RERROR : UInt8 := 107
def TFLUSH : UInt8 := 108
def RFLUSH : UInt8 := 109
def TWALK : UInt8 := 110
def RWALK : UInt8 := 111
def TOPEN : UInt8 := 112
def ROPEN : UInt8 := 113
def TCREATE : UInt8 := 114
def RCREATE : UInt8 := 115
def TREAD : UInt8 := 116
def RREAD : UInt8 := 117
def TWRITE : UInt8 := 118
def RWRITE : UInt8 := 119
def TCLUNK : UInt8 := 120
def RCLUNK : UInt8 := 121
def TREMOVE : UInt8 := 122
def RREMOVE : UInt8 := 123
def TSTAT : UInt8 := 124
def RSTAT : UInt8 := 125
def TWSTAT : UInt8 := 126
def RWSTAT : UInt8 := 127
def TCLONE : UInt8 := 128
def RCLONE : UInt8 := 129

end Planten
