import Samrh71Drivers.Lib.Transition
import Samrh71Drivers.Lib.Custody
import Samrh71Drivers.Lib.Loan
import Samrh71Drivers.Lib.Stuffing
import Samrh71Drivers.Lib.Destuffing
import Samrh71Drivers.Lib.Medium
import Samrh71Drivers.Lib.Settings
import Samrh71Drivers.Rtems
import Samrh71Drivers.Outcome
import Samrh71Drivers.Escaper.Interface
import Samrh71Drivers.Escaper.SendLoops
import Samrh71Drivers.Escaper.Decoder
import Samrh71Drivers.Escaper.Line
import Samrh71Drivers.Serial.Tx
import Samrh71Drivers.Serial.EscapedTx
import Samrh71Drivers.Serial.RawSend
import Samrh71Drivers.Serial.RawTx
import Samrh71Drivers.Serial.Shared
import Samrh71Drivers.Serial.EscapedStream
import Samrh71Drivers.Serial.EscapedReturn
import Samrh71Drivers.Serial.TxToken
import Samrh71Drivers.Serial.Rx
import Samrh71Drivers.Serial.Overrun
import Samrh71Drivers.Serial.Line
import Samrh71Drivers.Serial.Init
import Samrh71Drivers.Can.System
import Samrh71Drivers.Can.Init
import Samrh71Drivers.Can.Devices
import Samrh71Drivers.Board
import Samrh71Drivers.Can.Send
import Samrh71Drivers.Can.WholeMessage
import Samrh71Drivers.Can.Codec
import Samrh71Drivers.Can.Handshake
import Samrh71Drivers.Can.Reception
import Samrh71Drivers.Can.Frames
import Samrh71Drivers.Can.Bus
import Samrh71Drivers.Can.Progress
import Samrh71Drivers.Spw.Dividers
import Samrh71Drivers.Spw.Tx
import Samrh71Drivers.Spw.TxData
import Samrh71Drivers.Spw.TxOwnership
import Samrh71Drivers.Spw.Rx
import Samrh71Drivers.Spw.RxActivation
import Samrh71Drivers.Spw.RxDelivery
import Samrh71Drivers.Spw.RxRound
import Samrh71Drivers.Spw.Init
import Samrh71Drivers.Spw.InitOrder
import Samrh71Drivers.Spw.InitPhases
import Samrh71Drivers.Spw.StartUp
import Samrh71Drivers.Spw.Isolation
import Samrh71Drivers.Spw.EndToEnd
import Samrh71Drivers.Spw.Calls
import Samrh71Drivers.Spw.Link
