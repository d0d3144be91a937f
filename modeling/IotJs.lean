import IotJs.Lib.Reentrant.Prog
import IotJs.Lib.Reentrant.Contract
import IotJs.Lib.History
import IotJs.Core.Data
import IotJs.Core.Writable
import IotJs.Proofs.WritableWp
import IotJs.Proofs.WritableDelivery
import IotJs.Proofs.WritableDrain
import IotJs.Proofs.WritableHistory
import IotJs.Proofs.WritableFinish
import IotJs.Core.Readable
import IotJs.Proofs.ReadableWp
import IotJs.Proofs.ReadableConservation
import IotJs.Proofs.ReadableEnd
import IotJs.Core.Socket
import IotJs.Proofs.SocketWp
import IotJs.Proofs.SocketActions
import IotJs.Proofs.SocketBase
import IotJs.Proofs.SocketRespects
import IotJs.Proofs.SocketHandle
import IotJs.Proofs.SocketFailure
import IotJs.Proofs.SocketDestroy
import IotJs.Proofs.SocketHalves
import IotJs.Proofs.SocketCallbacks
import IotJs.Core.EventEmitter
import IotJs.Lib.Reentrant.Play
import IotJs.Proofs.SocketPending
import IotJs.Spec.ListenerMap
import IotJs.Proofs.EmitterRefines
import IotJs.Proofs.EmitterOnce
import IotJs.Proofs.EmitterTruth
import IotJs.Core.EventLoop
import IotJs.Proofs.EventLoopTicks
import IotJs.Core.HttpParser
import IotJs.Proofs.HttpParserHeaders
import IotJs.Proofs.HttpParserMessages
import IotJs.Core.HttpOutgoing
import IotJs.Proofs.HttpOutgoingWire
import IotJs.Lib.Reentrant.Intercept
import IotJs.Core.Http
import IotJs.Proofs.SocketYields
import IotJs.Proofs.HttpContract
import IotJs.Proofs.HttpReleased
import IotJs.Proofs.EventLoopDispatch
import IotJs.Core.Timers
import IotJs.Proofs.TimersLifecycle
import IotJs.Lib.Reentrant.Changes
import IotJs.Proofs.StreamChanges
import IotJs.Proofs.SocketTimed
import IotJs.Proofs.SocketTimeout
import IotJs.Core.Server
import IotJs.Lib.Runs
import IotJs.Proofs.ServerClose
import IotJs.Core.Module
import IotJs.Lib.Visit
import IotJs.Proofs.ModuleLoad
import IotJs.Proofs.ModuleIdentity
import IotJs.Core.HandleWrap
import IotJs.Proofs.HandleLifecycle
import IotJs.Core.Dgram
import IotJs.Proofs.DgramSend
import IotJs.Lib.Reentrant.Trace
import IotJs.Core.DgramHandle
import IotJs.Proofs.DgramClose
import IotJs.Lib.Reentrant.Zoom
import IotJs.Core.UdpSocket
import IotJs.Proofs.UdpSocketBind
import IotJs.Lib.Progress
import IotJs.Core.Fs
import IotJs.Proofs.FsLoops
import IotJs.Proofs.FsFailures
import IotJs.Proofs.FsRoundTrip
import IotJs.Core.FsOps
import IotJs.Proofs.FsAgreement
import IotJs.Core.Exit
import IotJs.Proofs.ExitStatus
import IotJs.Proofs.SocketFraming
import IotJs.Lib.Assoc
import IotJs.Proofs.HttpResponseHeaders
import IotJs.Lib.Delimited
import IotJs.Proofs.HttpHeaderSplitting
import IotJs.Core.HttpSkipBody
import IotJs.Proofs.HttpSkipBody
import IotJs.Core.I2c
import IotJs.Proofs.I2cTransfers
import IotJs.Core.Gpio
import IotJs.Proofs.GpioFlags
import IotJs.Lib.Decimal
import IotJs.Core.Pwm
import IotJs.Proofs.PwmWritten
import IotJs.Core.NetListeners
import IotJs.Proofs.NetFailures
import IotJs.Core.FsRange
import IotJs.Proofs.FsRange
import IotJs.Core.FsFiles
import IotJs.Proofs.FsTasks
import IotJs.Proofs.FsReadFile
import IotJs.Proofs.FsWriteFile
import IotJs.Lib.Utf8
import IotJs.Core.Buffer
import IotJs.Proofs.BufferRoundTrip
import IotJs.Lib.ForwardCopy
import IotJs.Core.BufferHeap
import IotJs.Proofs.BufferHeap
import IotJs.Proofs.BufferRuns
import IotJs.Proofs.BufferAssertions
import IotJs.Proofs.BufferOrder
import IotJs.Proofs.BufferCopy
import IotJs.Proofs.BufferSlice
import IotJs.Proofs.BufferWrite
import IotJs.Core.ModulePackages
import IotJs.Proofs.ModuleCandidates
import IotJs.Core.DgramSlice
import IotJs.Proofs.DgramSlice
import IotJs.Core.UtilFormat
import IotJs.Proofs.UtilFormat
import IotJs.Core.I2cData
import IotJs.Proofs.I2cWrites
import IotJs.Proofs.I2cReads
import IotJs.Proofs.PwmDutyCycle
import IotJs.Core.IotjsString
import IotJs.Proofs.StringBlocks
import IotJs.Proofs.StringAppend
import IotJs.Proofs.StringRuns
import IotJs.Lib.Substitution
import IotJs.Lib.MaximalMunch
import IotJs.Core.Js2c
import IotJs.Spec.LexicalGrammar
import IotJs.Proofs.LexicalElements
import IotJs.Proofs.Js2cComments
import IotJs.Proofs.Js2cTokens
import IotJs.Proofs.Js2cPrinted
import IotJs.Lib.Fallible
import IotJs.Spec.CSource
import IotJs.Core.Js2cFiles
import IotJs.Proofs.Js2cArrays
import IotJs.Proofs.Js2cTable
import IotJs.Core.MagicStrings
import IotJs.Proofs.MagicStrings
import IotJs.Lib.Worklist
import IotJs.Core.Build
import IotJs.Proofs.BuildModules
import IotJs.Proofs.BuildScan
import IotJs.Core.NativeModules
import IotJs.Proofs.NativeRequire
import IotJs.Lib.Ledger
import IotJs.Core.Requests
import IotJs.Proofs.RequestsOwned
import IotJs.Proofs.RequestsReleased
import IotJs.Core.Connection
import IotJs.Proofs.SocketAside
import IotJs.Proofs.SocketReceived
import IotJs.Proofs.SocketSent
import IotJs.Proofs.ConnectionOrder
import IotJs.Lib.Reentrant.Parts
import IotJs.Core.HttpMessages
import IotJs.Proofs.HttpMessages
import IotJs.Core.Teardown
import IotJs.Proofs.HandleContract
import IotJs.Proofs.Teardown
import IotJs.Proofs.TeardownValues
