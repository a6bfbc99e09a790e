import TwinScreen.Lib.LittleEndian
import TwinScreen.Lib.Chunks
import TwinScreen.Lib.Framing
import TwinScreen.Lib.Machine
import TwinScreen.Lib.Alternation
import TwinScreen.Lib.Pointers
import TwinScreen.Protocol
import TwinScreen.Host.Server
import TwinScreen.Lib.ByteBuffer
import TwinScreen.Tablet.Protocol
import TwinScreen.Tablet.Client
import TwinScreen.Link
import TwinScreen.Host.Inject
import TwinScreen.Host.Pointers
import TwinScreen.Host.Inbound
import TwinScreen.Host.Capture
import TwinScreen.Lib.Trace
import TwinScreen.Host.Nal
import TwinScreen.Host.Scaler
import TwinScreen.Host.MainLoop
import TwinScreen.Tablet.Session
import TwinScreen.Tablet.Player
import TwinScreen.Host.Audio
import TwinScreen.Host.Color
import TwinScreen.Host.Nvenc
import TwinScreen.Host.Qsv
import TwinScreen.Host.Amf
import TwinScreen.Host.Resize
import TwinScreen.Host.Payload
import TwinScreen.Roundtrip
import TwinScreen.Tablet.Sender
import TwinScreen.Framers
import TwinScreen.Host.Adaptive
import TwinScreen.Lib.BoundedQueue
import TwinScreen.Tablet.Queues
import TwinScreen.Host.Setup
import TwinScreen.Host.Keyframe
import TwinScreen.Host.Staging
import TwinScreen.Host.NalContainer
import TwinScreen.Lib.Utf16
import TwinScreen.Tablet.Handshake
import TwinScreen.AnnexB
import TwinScreen.Host.AudioQueue
import TwinScreen.Tablet.InputSender
import TwinScreen.Touch
import TwinScreen.Driver.Monitors
import TwinScreen.Driver.SwapChains
import TwinScreen.Tablet.Activity
import TwinScreen.Host.ColorRange
import TwinScreen.Host.Stereo
import TwinScreen.Host.Adts
import TwinScreen.Host.Packets
import TwinScreen.Host.AmfOutput
import TwinScreen.Host.RateControl
import TwinScreen.Host.Bitrate
import TwinScreen.Tablet.Contacts
import TwinScreen.Lib.Rounding
import TwinScreen.Stylus
import TwinScreen.Host.Mouse
import TwinScreen.Host.Region
import TwinScreen.Container
import TwinScreen.Driver.RunCore
import TwinScreen.Tablet.Feed
import TwinScreen.Lib.CNumber
import TwinScreen.Driver.Modes
import TwinScreen.Driver.Options
import TwinScreen.Host.SetBitrate
import TwinScreen.Lib.Custody
import TwinScreen.Lib.Least
import TwinScreen.Host.AmfHandles
import TwinScreen.Host.NvencHandles
import TwinScreen.Host.QsvHandles
import TwinScreen.Host.Handles
import TwinScreen.Host.Connection
import TwinScreen.Host.Turns
import TwinScreen.Tablet.Connect
import TwinScreen.Downlink
import TwinScreen.Uplink
import TwinScreen.Host.AacEncoder
import TwinScreen.Lib.Slot
import TwinScreen.Tablet.AudioPlayer
import TwinScreen.Tablet.AudioRelease
import TwinScreen.Tablet.AudioFormat
import TwinScreen.Tablet.Decoder
import TwinScreen.Lib.Hysteresis
import TwinScreen.Host.Congestion
import TwinScreen.Host.CaptureThread
import TwinScreen.Host.CaptureCustody
import TwinScreen.Host.CaptureCom
import TwinScreen.Host.CaptureRestart
import TwinScreen.Host.CaptureWaits
import TwinScreen.Host.Selection
