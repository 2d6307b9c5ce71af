import ZmqPractices.Czmq.Message

/-!
The constants of the Majordomo protocol (`mdp.h`), as the bytes of the C strings.
-/

namespace ZmqPractices.Majordomo

open Czmq

/-- `MDPC_HEADER`, the string `MDPC01`. -/
def mdpcHeader : Frame := [0x4d, 0x44, 0x50, 0x43, 0x30, 0x31]

/-- `MDPW_HEADER`, the string `MDPW01`. -/
def mdpwHeader : Frame := [0x4d, 0x44, 0x50, 0x57, 0x30, 0x31]

def mdpwReady : Frame := [1]
def mdpwRequest : Frame := [2]
def mdpwReply : Frame := [3]
def mdpwHeartbeat : Frame := [4]
def mdpwDisconnect : Frame := [5]

/-- The prefix `mmi.` of the service names the broker answers itself. -/
def mmi : Frame := [0x6d, 0x6d, 0x69, 0x2e]

/-- The service name `mmi.service`. -/
def mmiService : Frame := mmi ++ [0x73, 0x65, 0x72, 0x76, 0x69, 0x63, 0x65]

end ZmqPractices.Majordomo
