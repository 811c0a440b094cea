import HsrbDrivers.Library.CircularBuffer
import HsrbDrivers.Library.Reassembly
import HsrbDrivers.Library.SlidingWindow
import HsrbDrivers.PowerEcu.Common
import HsrbDrivers.PowerEcu.ElementDecoder
import HsrbDrivers.PowerEcu.FrameDecoder
import HsrbDrivers.PowerEcu.FrameGrammar
import HsrbDrivers.PowerEcu.DataDecoder
import HsrbDrivers.PowerEcu.FrameAcceptance
import HsrbDrivers.PowerEcu.ReceiveLoop
import HsrbDrivers.PowerEcu.ElementEncoder
import HsrbDrivers.PowerEcu.FrameEncoder
import HsrbDrivers.PowerEcu.RoundTrip
import HsrbDrivers.PowerEcu.DataEncoder
import HsrbDrivers.PowerEcu.EncodedFrames
import HsrbDrivers.PowerEcu.Protocol
import HsrbDrivers.PowerEcu.PublishedValues
import HsrbDrivers.PowerEcu.ReceiverProgress
import HsrbDrivers.PowerEcu.Acknowledgement
import HsrbDrivers.PowerEcu.ProtocolRuns
import HsrbDrivers.PowerEcu.CommandQueue
import HsrbDrivers.PowerEcu.PowerEcuPeer
import HsrbDrivers.PowerEcu.AckMatching
import HsrbDrivers.Library.Bytes
import HsrbDrivers.Servomotor.PacketParser
import HsrbDrivers.Servomotor.PacketFormat
import HsrbDrivers.Library.Storage
import HsrbDrivers.Servomotor.Network
import HsrbDrivers.Servomotor.Protocol
import HsrbDrivers.Servomotor.NoiseRecovery
import HsrbDrivers.Library.Placement
import HsrbDrivers.Servomotor.ControlTable
import HsrbDrivers.ImuSensor.PacketConverter
import HsrbDrivers.ImuSensor.Network
import HsrbDrivers.ImuSensor.Protocol
import HsrbDrivers.DigitalIo.SerialConnection
import HsrbDrivers.DigitalIo.UsbioSerial
import HsrbDrivers.Library.Channel
import HsrbDrivers.DigitalIo.UsbIo
import HsrbDrivers.Library.Session
import HsrbDrivers.Servomotor.Reprograming
import HsrbDrivers.Servomotor.Composition
import HsrbDrivers.Servomotor.Xmodem
import HsrbDrivers.ImuSensor.PacketStream
import HsrbDrivers.ImuSensor.Sending
import HsrbDrivers.ImuSensor.Delivery
import HsrbDrivers.ImuSensor.ResetRuns
import HsrbDrivers.PowerEcu.AckTimeout
import HsrbDrivers.PowerEcu.Heartbeat
import HsrbDrivers.PowerEcu.Resynchronisation
import HsrbDrivers.PowerEcu.Saturation
import HsrbDrivers.PowerEcu.InfoCommand
import HsrbDrivers.Servomotor.TableLoads
import HsrbDrivers.ImuSensor.Resynchronisation
import HsrbDrivers.ImuSensor.ResetRetry
import HsrbDrivers.Servomotor.Answers
import HsrbDrivers.Servomotor.Payloads
import HsrbDrivers.Servomotor.TableSearch
import HsrbDrivers.Library.Endless
import HsrbDrivers.Servomotor.Termination
import HsrbDrivers.Servomotor.Firmware
import HsrbDrivers.Servomotor.SendErrors
import HsrbDrivers.Library.Binary64
import HsrbDrivers.Servomotor.Conversion
import HsrbDrivers.PowerEcu.VersionRetry
import HsrbDrivers.DigitalIo.Polling
import HsrbDrivers.Library.Signal
import HsrbDrivers.DigitalIo.Debounce
import HsrbDrivers.Cgos.HsrbCgosHw
import HsrbDrivers.Cgos.HsrbCgosLib
import HsrbDrivers.Library.Schedule
import HsrbDrivers.Library.WriteLoop
import HsrbDrivers.PowerEcu.SerialNetwork
import HsrbDrivers.Library.Interruption
import HsrbDrivers.Servomotor.Transmission
import HsrbDrivers.ImuSensor.Transmission
import HsrbDrivers.Transmission
import HsrbDrivers.Library.Rounding
import HsrbDrivers.ImuSensor.CycleMonitor
import HsrbDrivers.Library.Locality
import HsrbDrivers.Servomotor.ExxxFlush
import HsrbDrivers.Servomotor.BootDialogue
import HsrbDrivers.PowerEcu.CommandProcessing
import HsrbDrivers.PowerEcu.Startup
import HsrbDrivers.PowerEcu.MainRuns
import HsrbDrivers.PowerEcu.LedCommands
import HsrbDrivers.ImuSensor.SensorNode
import HsrbDrivers.Servomotor.TableTools
import HsrbDrivers.Library.Backlog
import HsrbDrivers.PowerEcu.PublishedStates
import HsrbDrivers.Cgos.Lifecycle
import HsrbDrivers.DigitalIo.StatusLed
