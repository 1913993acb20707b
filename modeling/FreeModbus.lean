import FreeModbus.Atomic
import FreeModbus.BitBounds
import FreeModbus.BitLens
import FreeModbus.BitWrites
import FreeModbus.Crc
import FreeModbus.CrcBitwise
import FreeModbus.CrcErrors
import FreeModbus.EndToEnd
import FreeModbus.Lib.CheckedMemory
import FreeModbus.Lib.EventFlags
import FreeModbus.Lib.FeedbackRegister
import FreeModbus.Lib.SerialLine
import FreeModbus.Lib.Transition
import FreeModbus.Port.Event
import FreeModbus.Lifecycle
import FreeModbus.Port.Timer
import FreeModbus.RegisterMaps
import FreeModbus.Registers
import FreeModbus.Slave.AsciiBounds
import FreeModbus.Slave.AsciiGrammar
import FreeModbus.Slave.AsciiTimer
import FreeModbus.Slave.Checked
import FreeModbus.Slave.Classification
import FreeModbus.Slave.Disable
import FreeModbus.Slave.HalfDuplex
import FreeModbus.Slave.Locality
import FreeModbus.Slave.Registration
import FreeModbus.Slave.Store
import FreeModbus.Slave.Transaction
import FreeModbus.Master.RunResource
import FreeModbus.Master.SendBuffer
import FreeModbus.Master.Sending
import FreeModbus.Master.Execution
import FreeModbus.Master.Reply
import FreeModbus.Master.Unsolicited
import FreeModbus.Master.Outcome
import FreeModbus.Master.Destination
import FreeModbus.Master.Line
import FreeModbus.Master.Progress
import FreeModbus.Master.Restart
import FreeModbus.Master.Locality
import FreeModbus.Slave.ReplyLayout
import FreeModbus.Master.Reflection
import FreeModbus.Master.Broadcast
import FreeModbus.Framing
import FreeModbus.LengthAssertion
import FreeModbus.Segmentation
import FreeModbus.Lib.LeadsTo
import FreeModbus.Slave.AsciiSession
import FreeModbus.Slave.Recovery
import FreeModbus.Slave.Serving
import FreeModbus.Master.Concluding
import FreeModbus.Lib.Plant
import FreeModbus.Bus.Session
import FreeModbus.Kernel.PortSerial
import FreeModbus.Kernel.Semaphore
import FreeModbus.Kernel.PortTimer
import FreeModbus.Kernel.TimerOrder
