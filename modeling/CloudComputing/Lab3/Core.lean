import CloudComputing.Lib.Decimal

/-!
# Codes and states of the key-value database

The constants of `core.hpp`, `coordinator.hpp` and `logger.hpp` that the
modelled functions use.  A `txid` (`uint64_t`, in reachable states at most
`2 ^ 63`) and a `p_id` (participants are numbered from one) are natural
numbers.
-/

namespace CloudComputing
namespace Lab3

/-- `KV_OK` -/
def kvOk : Int := 0

/-- `KV_TIMEOUT` -/
def kvTimeout : Int := -3

/-- `KV_NETWORK` -/
def kvNetwork : Int := -6

/-- `KV_NETWORK_CLOSE` -/
def kvNetworkClose : Int := -7

/-- `KV_DEL` -/
def kvDel : Int := -10

/-- `KV_BAD_COMMAD` -/
def kvBadCommad : Int := -11

/-- `RET_SKIP`, the return code of a task that the worker did not send. -/
def retSkip : Int := 1

/-- `P_State` -/
inductive PState
  | invalid
  | working
  | recovery
  | waiting
  | temp
  deriving DecidableEq, Repr

/-- `CState` -/
inductive CState
  | invalid
  | working
  | recovery
  deriving DecidableEq, Repr

/-- `TXID_START` -/
def txidStart : Nat := 5

/-- `SUPER_TXID` -/
def superTxid : Nat := 0

/-- `RECOVERY_TXID` -/
def recoveryTxid : Nat := 1

/-- `ASK_DATA_TXID` -/
def askDataTxid : Nat := 2

end Lab3
end CloudComputing
