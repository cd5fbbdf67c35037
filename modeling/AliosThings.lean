import AliosThings.Lib.RingMemory
import AliosThings.Lib.Machine
import AliosThings.Lib.Slots
import AliosThings.Lib.Fifo
import AliosThings.Lib.SortedInsert
import AliosThings.Rhino.Err
import AliosThings.Rhino.Ringbuf
import AliosThings.Rhino.RingbufHeader
import AliosThings.Rhino.RingbufDyn
import AliosThings.Rhino.RingbufFix
import AliosThings.Rhino.RingbufFifo
import AliosThings.Rhino.Kernel
import AliosThings.Rhino.Sched
import AliosThings.Rhino.Pend
import AliosThings.Rhino.Prio
import AliosThings.Rhino.TaskOps
import AliosThings.Rhino.Mutex
import AliosThings.Rhino.BufQueue
import AliosThings.Rhino.System
import AliosThings.Rhino.Critical
import AliosThings.Rhino.Ownership
import AliosThings.Rhino.ReadyQueue
import AliosThings.Rhino.SchedInv
import AliosThings.Rhino.SchedRun
import AliosThings.Rhino.WaitInv
import AliosThings.Rhino.WaitRun
import AliosThings.Rhino.Tick
import AliosThings.Rhino.PrioChain
import AliosThings.Rhino.DynDel
import AliosThings.Lib.MemList
import AliosThings.Lib.LowBits
import AliosThings.Rhino.MblkPool
import AliosThings.Rhino.WorkQueue
import AliosThings.Rhino.Timer
import AliosThings.Rhino.SmpSched
import AliosThings.Rhino.Mm
import AliosThings.Rhino.MmHeader
import AliosThings.Rhino.MmStats
import AliosThings.Rhino.BitmapRef
import AliosThings.Lib.DList
import AliosThings.Rhino.MmFreelist
import AliosThings.Lib.Tiles
import AliosThings.Rhino.MmRegion
import AliosThings.Rhino.MmRegionFree
import AliosThings.Rhino.MmRegionAlloc
import AliosThings.Rhino.MmRegionRealloc
import AliosThings.Rhino.MmRegionRun
import AliosThings.Rhino.Time
import AliosThings.Vfs.Tables
import AliosThings.Vfs.Refs
import AliosThings.Vfs.Inode
import AliosThings.Vfs.Calls
import AliosThings.Vfs.Seq
import AliosThings.Vfs.Serial
import AliosThings.Vfs.Api
import AliosThings.Yloop.Loop
import AliosThings.Yloop.Timer
import AliosThings.Mqtt.Topic
import AliosThings.Mqtt.Packet
import AliosThings.Mqtt.Sub
import AliosThings.Mqtt.Pub
import AliosThings.Mqtt.TopicCheck
import AliosThings.Rhino.ObjInv
import AliosThings.Rhino.Frame
import AliosThings.Rhino.BufQueueRun
import AliosThings.Rhino.TaskFate
import AliosThings.Rhino.SemReturn
import AliosThings.Kv.Mgr
import AliosThings.Kv.Run
import AliosThings.Kv.GcWait
import AliosThings.Coap.Message
import AliosThings.Coap.Codec
import AliosThings.Coap.RoundTrip
import AliosThings.Coap.Receive
import AliosThings.Coap.SendList
import AliosThings.Coap.OptionGet
import AliosThings.Coap.MessageId
import AliosThings.Wsf.Framing
import AliosThings.Wsf.Msg
import AliosThings.Wsf.Wire
import AliosThings.Wsf.RequestQueue
