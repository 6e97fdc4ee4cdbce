import Stm32F1.Flash.Store
import Stm32F1.Sd.Wire
import Stm32F1.Sd.OnWire
import Stm32F1.Sd.WriteResult
import Stm32F1.Sd.Card
import Stm32F1.Sd.ReadResult
import Stm32F1.Sd.OnCard
import Stm32F1.Sd.Store
import Stm32F1.Lib.History
import Stm32F1.Lib.Ledger
import Stm32F1.Tcp.Client
import Stm32F1.Lib.Linked
import Stm32F1.Tcp.Buffers
import Stm32F1.Tcp.Senddata
import Stm32F1.Tcp.Steps
import Stm32F1.Tcp.Phases
import Stm32F1.Tcp.Lifetime
import Stm32F1.Tcp.Ownership
import Stm32F1.Tcp.Message
import Stm32F1.Enc.Chip
import Stm32F1.Enc.Driver
import Stm32F1.Enc.Access
import Stm32F1.Enc.Queue
import Stm32F1.Lib.Lines
import Stm32F1.Uart.Assembler
import Stm32F1.Uart.Items
import Stm32F1.Uart.Once
import Stm32F1.Flash.Discipline
import Stm32F1.Sd.Initialize
import Stm32F1.Sd.Law
import Stm32F1.Lcd.Address
import Stm32F1.Lcd.Fill
import Stm32F1.Enc.Calls
import Stm32F1.Enc.Coherent
import Stm32F1.Enc.InOrder
import Stm32F1.Enc.Send
import Stm32F1.Flash.Minimal
import Stm32F1.Lib.Ghost
import Stm32F1.Sd.Capacity
import Stm32F1.Sd.Ready
import Stm32F1.Tcp.Abort
import Stm32F1.Tcp.Structs
import Stm32F1.Tcp.Text
import Stm32F1.Enc.Transmit
import Stm32F1.Lwip.Pbuf
import Stm32F1.Netif.Boundary
import Stm32F1.Netif.Input
import Stm32F1.Udp.Receive
import Stm32F1.Lcd.Char
import Stm32F1.Lcd.Line
import Stm32F1.Lcd.Num
import Stm32F1.Lcd.Window
import Stm32F1.Lwip.Timer
import Stm32F1.Systick.Delay
import Stm32F1.Enc.Length
import Stm32F1.Enc.Macon
import Stm32F1.Lib.Leaves
import Stm32F1.Sd.Clean
import Stm32F1.Uart.Recognise
import Stm32F1.Flash.Split
import Stm32F1.Key.Scan
import Stm32F1.Lcd.Finite
import Stm32F1.Lcd.String
import Stm32F1.Sd.Token
import Stm32F1.Lib.Watched
import Stm32F1.Lwip.Output
import Stm32F1.Lwip.Room
import Stm32F1.Udp.Send
import Stm32F1.Rtos.Delays
import Stm32F1.Rtos.HeapRuns
import Stm32F1.Rtos.ListRuns
