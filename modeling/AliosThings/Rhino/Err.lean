import Mathlib

/-!
# Kernel status codes

`kstat_t` of `k_err.h`: every kernel service returns one of these values.
The numbering is kept, because one macro of the ring buffer (`COMPRESS_LEN`)
returns the number of `RHINO_INV_PARAM` where a byte count is expected.
-/

namespace Rhino

/-- `kstat_t`. -/
inductive Kstat where
  | success
  | sysFatalErr
  | sysSpErr
  | running
  | stopped
  | invParam
  | nullPtr
  | invAlign
  | kobjTypeErr
  | kobjDelErr
  | kobjDockerExist
  | kobjBlk
  | kobjSetFull
  | notifyFuncExist
  | mmPoolSizeErr
  | mmAllocSizeErr
  | mmFreeAddrErr
  | mmCorruptErr
  | dynMemProcErr
  | noMem
  | ringbufFull
  | ringbufEmpty
  | schedDisable
  | schedAlreadyEnabled
  | schedLockCountOvf
  | invSchedWay
  | taskInvStackSize
  | taskNotSuspended
  | taskDelNotAllowed
  | taskSuspendNotAllowed
  | suspendedCountOvf
  | beyondMaxPri
  | priChgNotAllowed
  | invTaskState
  | idleTaskExist
  | noPendWait
  | blkAbort
  | blkTimeout
  | blkDel
  | blkInvState
  | blkPoolSizeErr
  | timerStateInv
  | noThisEventOpt
  | bufQueueInvSize
  | bufQueueSizeZero
  | bufQueueFull
  | bufQueueMsgSizeOverflow
  | queueFull
  | queueNotFull
  | semOvf
  | semTaskWaiting
  | mutexNotReleasedByOwner
  | mutexOwnerNested
  | mutexNestedOvf
  | notCalledByIntrpt
  | tryAgain
  | workqueueExist
  | workqueueNotExist
  | workqueueWorkExist
  | workqueueBusy
  | workqueueWorkRunning
  | taskStackOvf
  | intrptStackOvf
  deriving DecidableEq, Repr

/-- The numeric value of each code, as the enumeration of `k_err.h` assigns it. -/
def Kstat.toNat : Kstat → Nat
  | .success => 0
  | .sysFatalErr => 1
  | .sysSpErr => 2
  | .running => 3
  | .stopped => 4
  | .invParam => 5
  | .nullPtr => 6
  | .invAlign => 7
  | .kobjTypeErr => 8
  | .kobjDelErr => 9
  | .kobjDockerExist => 10
  | .kobjBlk => 11
  | .kobjSetFull => 12
  | .notifyFuncExist => 13
  | .mmPoolSizeErr => 100
  | .mmAllocSizeErr => 101
  | .mmFreeAddrErr => 102
  | .mmCorruptErr => 103
  | .dynMemProcErr => 104
  | .noMem => 105
  | .ringbufFull => 106
  | .ringbufEmpty => 107
  | .schedDisable => 200
  | .schedAlreadyEnabled => 201
  | .schedLockCountOvf => 202
  | .invSchedWay => 203
  | .taskInvStackSize => 300
  | .taskNotSuspended => 301
  | .taskDelNotAllowed => 302
  | .taskSuspendNotAllowed => 303
  | .suspendedCountOvf => 304
  | .beyondMaxPri => 305
  | .priChgNotAllowed => 306
  | .invTaskState => 307
  | .idleTaskExist => 308
  | .noPendWait => 400
  | .blkAbort => 401
  | .blkTimeout => 402
  | .blkDel => 403
  | .blkInvState => 404
  | .blkPoolSizeErr => 405
  | .timerStateInv => 500
  | .noThisEventOpt => 600
  | .bufQueueInvSize => 700
  | .bufQueueSizeZero => 701
  | .bufQueueFull => 702
  | .bufQueueMsgSizeOverflow => 703
  | .queueFull => 704
  | .queueNotFull => 705
  | .semOvf => 800
  | .semTaskWaiting => 801
  | .mutexNotReleasedByOwner => 900
  | .mutexOwnerNested => 901
  | .mutexNestedOvf => 902
  | .notCalledByIntrpt => 1000
  | .tryAgain => 1001
  | .workqueueExist => 1100
  | .workqueueNotExist => 1101
  | .workqueueWorkExist => 1102
  | .workqueueBusy => 1103
  | .workqueueWorkRunning => 1104
  | .taskStackOvf => 1200
  | .intrptStackOvf => 1201

end Rhino
