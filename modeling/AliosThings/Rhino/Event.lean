import AliosThings.Rhino.TaskOps

/-!
# Event flags (`k_event.c`)

An event object keeps 32 flags. A task waits for all (`RHINO_AND`) or any
(`RHINO_OR`) of a set of flags, and may clear them when it gets them. A set
with `RHINO_OR` adds flags and then walks the waiters, testing each against
the flags as they were right after the addition, `cur_event_flags`, though a
waiter woken before may have cleared some of them since.
-/

namespace Rhino

def rhinoFlagsAndMask : Nat := 0x2
def rhinoFlagsClearMask : Nat := 0x1
def rhinoAnd : Nat := 0x02
def rhinoAndClear : Nat := 0x03
def rhinoOr : Nat := 0x00
def rhinoOrClear : Nat := 0x01

/-- The test of `krhino_event_get` and `event_set`: do `flags` satisfy a wait for
`want` under the option `opt`? -/
def eventReady (flags want : UInt32) (opt : Nat) : Bool :=
  if opt &&& rhinoFlagsAndMask ≠ 0 then flags &&& want = want else flags &&& want ≠ 0

namespace Kernel

/-- `krhino_event_create`. -/
def krhinoEventCreate (k : Kernel) (e : Nat) (flags : UInt32) : Kernel :=
  k.setEvent e fun _ => { blkObj := ⟨[], .pri, .event⟩, flags := flags }

/-- `krhino_event_del`: every waiter is woken with `BLK_DEL`, then the flags are cleared. -/
def krhinoEventDel (k : Kernel) (e : Nat) : Kernel × Kstat :=
  if 0 < k.intrptNested then (k, .notCalledByIntrpt)
  else if (k.events e).blkObj.objType ≠ .event then (k, .kobjTypeErr)
  else
    let k := k.setEvent e fun ev => { ev with blkObj := { ev.blkObj with objType := .none } }
    let k := k.pendTaskRmAll (k.events e).blkObj.blkList
    ((k.setEvent e fun ev => { ev with flags := 0 }).coreSched, .success)

/-- `krhino_event_get` by the active task, with `*actl_flags` of an immediate return. -/
def krhinoEventGet (k : Kernel) (e : Nat) (flags : UInt32) (opt ticks : Nat) :
    Kernel × KRet × UInt32 :=
  let ev := k.events e
  if opt ≠ rhinoAnd ∧ opt ≠ rhinoOr ∧ opt ≠ rhinoAndClear ∧ opt ≠ rhinoOrClear then
    (k, .ret .noThisEventOpt, 0)
  else if 0 < k.intrptNested then (k, .ret .notCalledByIntrpt, 0)
  else if ev.blkObj.objType ≠ .event then (k, .ret .kobjTypeErr, 0)
  else if eventReady ev.flags flags opt then
    let k := if opt &&& rhinoFlagsClearMask ≠ 0 then
        k.setEvent e fun ev => { ev with flags := ev.flags &&& ~~~flags }
      else k
    (k, .ret .success, ev.flags)
  else if ticks = rhinoNoWait then (k, .ret .noPendWait, 0)
  else if 0 < k.schedLock then (k, .ret .schedDisable, 0)
  else
    let a := k.activeTask
    let k := k.setTask a fun task => { task with pendOption := opt, pendFlags := flags }
    ((k.pendToBlkObj (.event e) a ticks).coreSched, .blocked, 0)

/-- The walk of `event_set` over the waiters, against `cur_event_flags`. -/
def eventSetWake (k : Kernel) (e : Nat) (cur : UInt32) : List Nat → Kernel
  | [] => k
  | t :: ts =>
    let task := k.tasks t
    if eventReady cur task.pendFlags task.pendOption then
      let k := (k.setTask t fun task => { task with pendInfo := cur }).pendTaskWakeup t
      let k := if task.pendOption &&& rhinoFlagsClearMask ≠ 0 then
          k.setEvent e fun ev => { ev with flags := ev.flags &&& ~~~task.pendFlags }
        else k
      eventSetWake k e cur ts
    else eventSetWake k e cur ts

/-- `event_set`: `RHINO_AND` only clears flags; `RHINO_OR` adds them and wakes the
waiters they satisfy. -/
def eventSet (k : Kernel) (e : Nat) (flags : UInt32) (opt : Nat) : Kernel × Kstat :=
  if (k.events e).blkObj.objType ≠ .event then (k, .kobjTypeErr)
  else if opt &&& rhinoFlagsAndMask ≠ 0 then
    (k.setEvent e fun ev => { ev with flags := ev.flags &&& flags }, .success)
  else
    let k := k.setEvent e fun ev => { ev with flags := ev.flags ||| flags }
    let cur := (k.events e).flags
    ((k.eventSetWake e cur (k.events e).blkObj.blkList).coreSched, .success)

/-- `krhino_event_set`. -/
def krhinoEventSet (k : Kernel) (e : Nat) (flags : UInt32) (opt : Nat) : Kernel × Kstat :=
  if opt ≠ rhinoAnd ∧ opt ≠ rhinoOr then (k, .noThisEventOpt)
  else k.eventSet e flags opt

end Kernel

end Rhino
